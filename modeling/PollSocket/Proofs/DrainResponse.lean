import Mathlib
import PollSocket.Wire

set_option autoImplicit false

/-!
# Proper answers to drains

A body is a proper answer to a drain if it is one object whose messages are a list of texts. Names match
up to case, and of several lists the last one counts. An item may be `null`: it stands for the text that
was given for its place last, if there is one since the list was taken away or emptied, and for the empty
text otherwise. `ProperAnswer` says so without reading the body member by member, and
`decodeDrainResponse_ok_iff` says that exactly the proper answers are accepted, with their messages.
-/

namespace PollSocket

namespace Json.Value

/-- The value may be an item of a list of messages. -/
def isItem : Value → Bool
  | .string _ => true
  | .null => true
  | _ => false

/-- The value may be given for the messages. -/
def isList : Value → Bool
  | .null => true
  | .array items => items.all isItem
  | _ => false

/-- Text of an item; if there is none, its place keeps the text `kept`. -/
def textOr (kept : String) : Option Value → String
  | some (.string s) => s
  | _ => kept

/-- Number of items of a list. -/
def size? : Value → Option Nat
  | .array items => some items.length
  | _ => none

end Json.Value

/-- Text at a place after values were given for the messages, newest first. -/
def textAt : List Json.Value → Nat → String
  | .array (item :: more) :: older, i => Json.Value.textOr (textAt older i) (item :: more)[i]?
  | _, _ => ""

/-- Values that the members of an object give for the messages. -/
def givenMessages (members : List (String × Json.Value)) : List Json.Value :=
  (members.filter fun m => Text.sameFolded m.1 "messages").map (·.2)

/-- The body is an object whose messages are a list, and these are its texts. -/
def ProperAnswer (body : List UInt8) (messages : List String) : Prop :=
  ∃ members items, Json.whole? (Text.decode body) = some (.object members) ∧
    (∀ v ∈ givenMessages members, v.isList = true) ∧
    (givenMessages members).getLast? = some (.array items) ∧
    messages = (List.range items.length).map (textAt (givenMessages members).reverse)

namespace ListField

variable {v : Json.Value} {given items : List Json.Value} {f : ListField}

/-- Items are written over cells, place by place. -/
theorem fill_of_items (h : items.all Json.Value.isItem = true) (done cells : List String) :
    ∃ out, fill done cells items = some (done.reverse ++ out) ∧ items.length ≤ out.length ∧
      ∀ i : Nat, out.getD i "" = Json.Value.textOr (cells.getD i "") items[i]? := by
  induction items generalizing done cells with
  | nil => exact ⟨cells, rfl, Nat.zero_le _, fun i => rfl⟩
  | cons item more ih =>
    rw [List.all_cons, Bool.and_eq_true] at h
    -- the first cell gets a text, the others are filled by the other items
    have hcell : ∀ text, text = Json.Value.textOr (cells.getD 0 "") (some item) →
        fill done cells (item :: more) = fill (text :: done) cells.tail more →
        ∃ out, fill done cells (item :: more) = some (done.reverse ++ out) ∧
          (item :: more).length ≤ out.length ∧
          ∀ i : Nat, out.getD i "" = Json.Value.textOr (cells.getD i "") (item :: more)[i]? := by
      intro text htext hfill
      obtain ⟨out, hout, hlength, hplaces⟩ := ih h.2 (text :: done) cells.tail
      refine ⟨text :: out, ?_, Nat.succ_le_succ hlength, fun i => ?_⟩
      · rw [hfill, hout]
        simp
      · cases i with
        | zero => exact htext
        | succ i =>
          rw [List.getD_cons_succ, hplaces i]
          congr 1
          cases cells <;> simp
    cases item with
    | string s => exact hcell s rfl rfl
    | null =>
      refine hcell (cells.headD "") ?_ rfl
      cases cells <;> rfl
    | _ => cases h.1

/-- Other items spoil the list, wherever they stand. -/
theorem fill_of_not_items (h : items.all Json.Value.isItem = false) (done cells : List String) :
    fill done cells items = none := by
  induction items generalizing done cells with
  | nil => cases h
  | cons item more ih =>
    cases item with
    | string s => exact ih h (s :: done) cells.tail
    | null => exact ih h (cells.headD "" :: done) cells.tail
    | _ => rfl

/-- The field after values were given for it. -/
structure Took (f : ListField) (given : List Json.Value) : Prop where
  cells : ∀ i : Nat, f.cells.getD i "" = textAt given.reverse i
  size : f.size = given.getLast?.bind Json.Value.size?
  room : ∀ n, f.size = some n → n ≤ f.cells.length

theorem Took.items? (h : f.Took given) :
    f.items? = (given.getLast?.bind Json.Value.size?).map fun n =>
      (List.range n).map (textAt given.reverse) := by
  rw [ListField.items?, h.size]
  refine Option.map_congr fun n hn => ?_
  have hroom := h.room n (h.size.trans hn)
  refine List.ext_getElem (by simp [hroom]) fun i hi _ => ?_
  have hlt : i < f.cells.length := Nat.lt_of_lt_of_le (by simpa using hi) (Nat.min_le_right n _)
  rw [List.getElem_map, List.getElem_range, ← h.cells i, List.getElem_take,
    List.getD_eq_getElem _ _ hlt]

/-- One more value is given. -/
theorem Took.read (h : f.Took given) (hv : v.isList = true) :
    ∃ g, f.read v = some g ∧ g.Took (given ++ [v]) := by
  cases v with
  | null =>
    exact ⟨{}, rfl, fun i => by simp [textAt], by simp [Json.Value.size?], by simp⟩
  | array items =>
    cases items with
    | nil => exact ⟨{ size := some 0 }, rfl, fun i => by simp [textAt], by simp [Json.Value.size?], by simp⟩
    | cons item more =>
      obtain ⟨out, hout, hlength, hplaces⟩ := fill_of_items hv [] f.cells
      refine ⟨{ cells := out, size := some (item :: more).length }, ?_, fun i => ?_, ?_, ?_⟩
      · simp [ListField.read, hout]
      · rw [List.reverse_append, List.reverse_singleton, List.singleton_append, textAt, ← h.cells i]
        exact hplaces i
      · simp [Json.Value.size?]
      · rintro n ⟨⟩
        exact hlength
  | _ => cases hv

/-- A value that is no list spoils the field. -/
theorem read_of_not_isList (f : ListField) (hv : v.isList = false) : f.read v = none := by
  cases v with
  | null => cases hv
  | array items =>
    cases items with
    | nil => cases hv
    | cons item more =>
      have hfill := fill_of_not_items hv [] f.cells
      simp [ListField.read, hfill]
  | _ => rfl

/-- All values are given, one after another. -/
theorem took_foldlM (given : List Json.Value) (h : ∀ v ∈ given, v.isList = true) :
    ∃ f, given.foldlM read {} = some f ∧ f.Took given := by
  induction given using List.reverseRecOn with
  | nil => exact ⟨{}, rfl, fun i => rfl, rfl, by simp⟩
  | append_singleton front v ih =>
    obtain ⟨f, hf, htook⟩ := ih fun u hu => h u (List.mem_append_left _ hu)
    obtain ⟨g, hg, htook'⟩ := htook.read (h v (by simp))
    refine ⟨g, ?_, htook'⟩
    rw [List.foldlM_append, hf]
    simpa using hg

theorem foldlM_eq_none (hv : v ∈ given) (hnot : v.isList = false) (f : ListField) :
    given.foldlM read f = none := by
  induction given generalizing f with
  | nil => cases hv
  | cons u more ih =>
    rw [List.foldlM_cons]
    rcases List.mem_cons.1 hv with rfl | hv
    · rw [read_of_not_isList f hnot]
      rfl
    · cases f.read u with
      | none => rfl
      | some g => exact ih hv g

end ListField

/-- An answer to a drain has no field but the messages. -/
theorem readMembers_drainResponse (f : Fields) (members : List (String × Json.Value)) :
    f.readMembers .drainResponse members =
      ((givenMessages members).foldlM ListField.read f.messages).map fun l => { f with messages := l } := by
  induction members generalizing f with
  | nil => rfl
  | cons m more ih =>
    by_cases hm : Text.sameFolded m.1 "messages" = true
    · have hgiven : givenMessages (m :: more) = m.2 :: givenMessages more := by simp [givenMessages, hm]
      have hread : f.readMember .drainResponse m =
          (f.messages.read m.2).map fun l => { f with messages := l } := by
        simp [Fields.readMember, BodyShape.drainResponse, hm]
      rw [hgiven, List.foldlM_cons, Fields.readMembers, hread]
      cases f.messages.read m.2 with
      | none => rfl
      | some l => exact ih { f with messages := l }
    · have hgiven : givenMessages (m :: more) = givenMessages more := by simp [givenMessages, hm]
      have hread : f.readMember .drainResponse m = some f := by
        simp [Fields.readMember, BodyShape.drainResponse, hm]
      rw [hgiven, Fields.readMembers, hread]
      exact ih f

/-- Exactly the proper answers are accepted, with their messages. -/
theorem decodeDrainResponse_ok_iff {body : List UInt8} {messages : List String} :
    decodeDrainResponse body = .ok messages ↔ ProperAnswer body messages := by
  unfold decodeDrainResponse ProperAnswer
  cases hwhole : Json.whole? (Text.decode body) with
  | none => simp
  | some v =>
    cases v with
    | object members =>
      rw [Option.bind_some, Fields.ofValue, readMembers_drainResponse]
      by_cases hlists : ∀ v ∈ givenMessages members, v.isList = true
      · obtain ⟨f, hf, htook⟩ := ListField.took_foldlM _ hlists
        rw [hf, Option.map_some]
        dsimp only
        rw [htook.items?]
        -- the list that counts is the last value, if that is a list
        have hother : (∀ items, (givenMessages members).getLast? ≠ some (.array items)) →
            ¬ ∃ members' items, some (Json.Value.object members) = some (.object members') ∧
              (∀ v ∈ givenMessages members', v.isList = true) ∧
              (givenMessages members').getLast? = some (.array items) ∧
              messages = (List.range items.length).map (textAt (givenMessages members').reverse) := by
          rintro hne ⟨_, items, ⟨⟩, -, hlast, -⟩
          exact hne items hlast
        cases hlast : (givenMessages members).getLast? with
        | none => exact iff_of_false (by rintro ⟨⟩) (hother (by simp [hlast]))
        | some last =>
          cases last with
          | array items =>
            constructor
            · rintro ⟨⟩
              exact ⟨members, items, rfl, hlists, hlast, rfl⟩
            · rintro ⟨_, items', ⟨⟩, -, hlast', rfl⟩
              cases hlast.symm.trans hlast'
              rfl
          | _ =>
            exact iff_of_false (by rintro ⟨⟩) (hother (by simp [hlast]))
      · obtain ⟨v, hv, hnot⟩ : ∃ v ∈ givenMessages members, v.isList = false := by simpa using hlists
        rw [ListField.foldlM_eq_none hv hnot]
        refine iff_of_false (by rintro ⟨⟩) ?_
        rintro ⟨_, _, ⟨⟩, hall, -⟩
        exact hlists hall
    | null => simp [Fields.ofValue, ListField.items?]
    | _ => simp [Fields.ofValue]

/-- The text of an item `null` is the one from the list before, even from beyond the end of a list in
between. -/
example : (List.range 2).map (textAt [.array [.null, .null], .array [.string "c"],
    .array [.string "a", .string "b"]]) = ["c", "b"] := rfl

end PollSocket
