import Mathlib
import PollSocket.Json.Reader
import PollSocket.Json.Writer

set_option autoImplicit false

/-!
# The reader reads what the writer writes

`Reads e v n` says that a reader which expects a value takes the written form of `v`, nested `n`
deep, and goes on with `v` delivered. Strings are read in any dialect whose short escapes the reader
knows, and so are arrays and objects of values that are (`reads_string`, `reads_array`,
`reads_object`).

What a reader makes of a text that is cut off is a number, or what it makes of the whole text
(`first?_cut`): replacement characters, which stand for the bytes of a character that was cut, end
no other value.
-/

namespace PollSocket.Json

variable {e : Escapes} {members : List (String × Value)} {stack : List Container} {items : List Value}
  {depth n : Nat} {r : Reader} {v : Value}

namespace Reader

/-! ## Runs -/

theorem run_nil (r : Reader) : r.run [] = (r, []) := rfl

theorem run_cons (r : Reader) (c : Char) (cs : List Char) :
    r.run (c :: cs) = if (r.settle c).over then (r.settle c, c :: cs)
      else ((r.settle c).step c).run cs := rfl

theorem settle_of_over (h : r.over = true) (c : Char) : r.settle c = r := by
  unfold Reader.over at h
  unfold Reader.settle
  cases hm : r.mode <;> simp [hm] at h ⊢

theorem run_of_over (h : r.over = true) (cs : List Char) : r.run cs = (r, cs) := by
  cases cs with
  | nil => rfl
  | cons c cs => rw [run_cons, settle_of_over h, if_pos h]

/-- A run over a longer text goes on where the run over its beginning has stopped. -/
theorem run_append (r : Reader) (cs ds : List Char) :
    r.run (cs ++ ds) = if (r.run cs).1.over then ((r.run cs).1, (r.run cs).2 ++ ds)
      else (r.run cs).1.run ds := by
  induction cs generalizing r with
  | nil =>
    rw [List.nil_append, run_nil]
    split
    next h => rw [run_of_over h]; rfl
    next => rfl
  | cons c cs ih =>
    rw [List.cons_append, run_cons, run_cons]
    by_cases h : (r.settle c).over = true
    · simp [h]
    · rw [if_neg h, if_neg h, ih]

/-- A mode in which a character is just taken. -/
theorem run_step {c : Char} (hsettle : r.settle c = r) (hover : r.over = false) (cs : List Char) :
    r.run (c :: cs) = (r.step c).run cs := by
  rw [run_cons, hsettle, hover]
  rfl

end Reader

/-! ## Strings -/

theorem hexValue?_hexDigit (h : n < 16) : Text.hexValue? (Text.hexDigit n) = some n := by
  have key : ∀ n : Fin 16, Text.hexValue? (Text.hexDigit n) = some n.val := by decide
  exact key ⟨n, h⟩

theorem hexDigits_four (n : Nat) : Text.hexDigits 4 n =
    [Text.hexDigit (n / 4096 % 16), Text.hexDigit (n / 256 % 16), Text.hexDigit (n / 16 % 16),
      Text.hexDigit (n % 16)] := by
  simp [Text.hexDigits, Nat.div_div_eq_div_mul]

theorem not_surrogate (c : Char) :
    isHighSurrogate c.toNat = false ∧ isLowSurrogate c.toNat = false := by
  have hvalid : c.toNat < 0xD800 ∨ 0xDFFF < c.toNat ∧ c.toNat < 0x110000 := c.valid
  simp only [isHighSurrogate, isLowSurrogate, Bool.and_eq_false_iff, decide_eq_false_iff_not]
  omega

theorem charsOfUnits_cons (acc : List Char) (c : Char) (units : List Nat) :
    charsOfUnits acc (c.toNat :: units) = charsOfUnits (c :: acc) units := by
  obtain ⟨hhigh, hlow⟩ := not_surrogate c
  -- a unit is paired with the next one only if it is a surrogate, which no character is
  cases units with
  | nil | cons n more => simp [charsOfUnits, hhigh, hlow]

/-- Code units of characters, last first, stand for the characters. -/
theorem textOfUnits_codes (cs : List Char) :
    textOfUnits (cs.map Char.toNat).reverse = String.ofList cs := by
  have key : ∀ (cs acc : List Char), charsOfUnits acc (cs.map Char.toNat) = cs.reverse ++ acc := by
    intro cs
    induction cs with
    | nil =>
      intro acc
      rfl
    | cons c more ih =>
      intro acc
      rw [List.map_cons, charsOfUnits_cons, ih]
      simp
  rw [textOfUnits, ← List.map_reverse, key]
  simp

/-- The short escapes of a dialect are ones that the reader knows. -/
def Escapes.Known (e : Escapes) : Prop :=
  (∀ c letter, e.short.lookup c = some letter → letter ≠ 'u' ∧ shortEscape? letter = some c.toNat) ∧
    ∀ c ∈ e.markup, c.toNat < 0x10000

theorem known_message : Escapes.message.Known := by
  constructor
  · intro c letter h
    obtain ⟨front, back, hshort, -⟩ := List.lookup_eq_some_iff.1 h
    have hmem : (c, letter) ∈ Escapes.message.short := by
      rw [hshort]
      simp
    simp only [Escapes.message, List.mem_cons, List.not_mem_nil, or_false] at hmem
    rcases hmem with ⟨rfl, rfl⟩ | ⟨rfl, rfl⟩ | ⟨rfl, rfl⟩ | ⟨rfl, rfl⟩ | ⟨rfl, rfl⟩ <;> decide
  · intro c hc
    simp only [Escapes.message, List.mem_cons, List.not_mem_nil, or_false] at hc
    rcases hc with rfl | rfl | rfl <;> simp

/-- An escape by the number of a code unit is taken as that code unit. -/
theorem run_escapeUnit (isName : Bool) (units : List Nat) (stack : List Container) (depth : Nat)
    (hn : n < 0x10000) (rest : List Char) :
    (⟨.text isName units, stack, depth⟩ : Reader).run (escapeUnit n ++ rest) =
      (⟨.text isName (n :: units), stack, depth⟩ : Reader).run rest := by
  have hdigit : ∀ (d left code : Nat) (more : List Char), d < 16 → 1 < left →
      (⟨.hex isName units left code, stack, depth⟩ : Reader).run (Text.hexDigit d :: more) =
        (⟨.hex isName units (left - 1) (code * 16 + d), stack, depth⟩ : Reader).run more := by
    intro d left code more hd hleft
    rw [Reader.run_step rfl rfl]
    simp only [Reader.step, hexValue?_hexDigit hd]
    rw [if_neg (by omega)]
  have hlast : ∀ (d code : Nat) (more : List Char), d < 16 →
      (⟨.hex isName units 1 code, stack, depth⟩ : Reader).run (Text.hexDigit d :: more) =
        (⟨.text isName ((code * 16 + d) :: units), stack, depth⟩ : Reader).run more := by
    intro d code more hd
    rw [Reader.run_step rfl rfl]
    simp only [Reader.step, hexValue?_hexDigit hd]
    rfl
  -- four digits give the number back
  have hcode : (((0 * 16 + n / 4096 % 16) * 16 + n / 256 % 16) * 16 + n / 16 % 16) * 16 + n % 16 =
      n := by omega
  rw [escapeUnit, hexDigits_four]
  simp only [List.cons_append, List.nil_append]
  show (⟨.hex isName units 4 0, stack, depth⟩ : Reader).run _ = _
  rw [hdigit _ 4 _ _ (by omega) (by omega), hdigit _ 3 _ _ (by omega) (by omega),
    hdigit _ 2 _ _ (by omega) (by omega), hlast _ _ _ (by omega), hcode]

/-- One character of a string is taken as its code. -/
theorem run_char (he : e.Known) (isName : Bool) (units : List Nat) (stack : List Container) (depth : Nat)
    (c : Char) (rest : List Char) :
    (⟨.text isName units, stack, depth⟩ : Reader).run (e.char c ++ rest) =
      (⟨.text isName (c.toNat :: units), stack, depth⟩ : Reader).run rest := by
  have hshort : ∀ letter, letter ≠ 'u' → shortEscape? letter = some c.toNat →
      (⟨.text isName units, stack, depth⟩ : Reader).run (['\\', letter] ++ rest) =
        (⟨.text isName (c.toNat :: units), stack, depth⟩ : Reader).run rest := by
    intro letter hu hl
    simp only [List.cons_append]
    rw [Reader.run_step rfl rfl]
    rw [Reader.run_step rfl rfl]
    simp [Reader.step, hu, hl]
  unfold Escapes.char
  split
  next hc =>
    rw [Bool.or_eq_true, beq_iff_eq, beq_iff_eq] at hc
    rcases hc with rfl | rfl
    · exact hshort '"' (by decide) rfl
    · exact hshort '\\' (by decide) rfl
  next hc =>
    split
    next letter hl =>
      obtain ⟨hu, hcode⟩ := he.1 c letter hl
      exact hshort letter hu hcode
    next =>
      split
      next hesc =>
        refine run_escapeUnit isName units stack depth ?_ rest
        simp only [Bool.or_eq_true, decide_eq_true_eq, List.contains_iff_mem, beq_iff_eq] at hesc
        rcases hesc with ((hlow | hmark) | rfl) | rfl
        · have hnat : c.toNat < 32 := Char.lt_def.1 hlow
          omega
        · exact he.2 c hmark
        · simp
        · simp
      next hraw =>
        simp only [Bool.or_eq_true, not_or, decide_eq_true_eq] at hc hraw
        rw [List.singleton_append, Reader.run_step rfl rfl]
        simp [Reader.step, hc.1, hc.2, hraw.1.1.1]

/-- A string literal behind its first quote is read up to its end. -/
theorem run_literal (he : e.Known) (isName : Bool) (stack : List Container) (depth : Nat) (s : String)
    (rest : List Char) :
    (⟨.text isName [], stack, depth⟩ : Reader).run (s.toList.flatMap e.char ++ '"' :: rest) =
      (Reader.endText ⟨.text isName (s.toList.map Char.toNat).reverse, stack, depth⟩ isName
        (s.toList.map Char.toNat).reverse).run rest := by
  have key : ∀ (cs : List Char) (units : List Nat),
      (⟨.text isName units, stack, depth⟩ : Reader).run (cs.flatMap e.char ++ '"' :: rest) =
        (⟨.text isName ((cs.map Char.toNat).reverse ++ units), stack, depth⟩ : Reader).run
          ('"' :: rest) := by
    intro cs
    induction cs with
    | nil =>
      intro units
      rfl
    | cons c more ih =>
      intro units
      rw [List.flatMap_cons, List.append_assoc, run_char he, ih]
      simp
  rw [key, List.append_nil]
  rfl

/-! ## Values -/

/-- A reader that expects a value reads the written form of `v`, which is nested `n` deep. -/
def Reads (e : Escapes) (v : Value) (n : Nat) : Prop :=
  ∀ (afterOpen : Bool) (stack : List Container) (depth : Nat) (rest : List Char),
    depth + n ≤ maxDepth →
    (⟨.value afterOpen, stack, depth⟩ : Reader).run (v.chars e ++ rest) =
      (Reader.deliver ⟨.next, stack, depth⟩ v).run rest

theorem deliver_mode (m : Mode) (stack : List Container) (depth : Nat) (v : Value) :
    Reader.deliver ⟨m, stack, depth⟩ v = Reader.deliver ⟨.next, stack, depth⟩ v := by
  rcases stack with - | ⟨items | ⟨members, name⟩, more⟩ <;> rfl

theorem literal_append (e : Escapes) (s : String) (rest : List Char) :
    e.literal s ++ rest = '"' :: (s.toList.flatMap e.char ++ '"' :: rest) := by
  simp [Escapes.literal]

theorem reads_string (he : e.Known) (s : String) : Reads e (.string s) 0 := by
  intro afterOpen stack depth rest _
  have hstart : Reader.step ⟨.value afterOpen, stack, depth⟩ '"' = ⟨.text false [], stack, depth⟩ := by
    cases afterOpen <;> rfl
  rw [Value.chars, literal_append, Reader.run_step rfl rfl, hstart, run_literal he, Reader.endText,
    if_neg Bool.false_ne_true, textOfUnits_codes, String.ofList_toList, deliver_mode]

/-- The items of an array, and its end. -/
theorem run_items (hitems : ∀ v ∈ items, Reads e v n) (hne : items ≠ []) (hdepth : depth + 1 + n ≤ maxDepth)
    (done : List Value) (afterOpen : Bool) (rest : List Char) :
    (⟨.value afterOpen, .array done :: stack, depth + 1⟩ : Reader).run
        (itemChars e items ++ ']' :: rest) =
      (Reader.deliver ⟨.next, stack, depth⟩ (.array (done.reverse ++ items))).run rest := by
  -- by induction on the items that are left; `done` holds those before, last first
  induction items generalizing done afterOpen with
  | nil => exact absurd rfl hne
  | cons v more ih =>
    have hv := hitems v List.mem_cons_self
    cases more with
    | nil =>
      rw [itemChars, hv _ _ _ _ hdepth]
      show (Reader.deliver ⟨.next, stack, depth⟩ (.array (v :: done).reverse)).run rest = _
      rw [List.reverse_cons]
    | cons w more =>
      rw [itemChars, List.append_assoc, hv _ _ _ _ hdepth]
      show (⟨.next, .array (v :: done) :: stack, depth + 1⟩ : Reader).run
        (',' :: (itemChars e (w :: more) ++ ']' :: rest)) = _
      show (⟨.value false, .array (v :: done) :: stack, depth + 1⟩ : Reader).run _ = _
      rw [ih (fun u hu => hitems u (List.mem_cons_of_mem v hu)) (by simp) (v :: done) false]
      simp

theorem reads_array (hitems : ∀ v ∈ items, Reads e v n) : Reads e (.array items) (n + 1) := by
  intro afterOpen stack depth rest hdepth
  have hstart : Reader.step ⟨.value afterOpen, stack, depth⟩ '[' =
      ⟨.value true, .array [] :: stack, depth + 1⟩ := by
    have henter : Reader.enter ⟨.value afterOpen, stack, depth⟩ (.array []) (.value true) =
        ⟨.value true, .array [] :: stack, depth + 1⟩ := by
      rw [Reader.enter, if_pos (show depth < maxDepth by omega)]
    cases afterOpen <;> exact henter
  have hchars : (Value.array items).chars e ++ rest = '[' :: (itemChars e items ++ ']' :: rest) := by
    simp [Value.chars]
  rw [hchars, Reader.run_step rfl rfl, hstart]
  by_cases hne : items = []
  · rw [hne, itemChars, List.nil_append]
    rfl
  · exact run_items hitems hne (by omega) [] true rest

/-- The members of an object, and its end. -/
theorem run_members (he : e.Known) (hmembers : ∀ m ∈ members, Reads e m.2 n) (hne : members ≠ [])
    (hdepth : depth + 1 + n ≤ maxDepth) (done : List (String × Value)) (name : String) (afterOpen : Bool)
    (rest : List Char) :
    (⟨.name afterOpen, .object done name :: stack, depth + 1⟩ : Reader).run
        (memberChars e members ++ '\x7d' :: rest) =
      (Reader.deliver ⟨.next, stack, depth⟩ (.object (done.reverse ++ members))).run rest := by
  induction members generalizing done name afterOpen with
  | nil => exact absurd rfl hne
  | cons m more ih =>
    obtain ⟨k, v⟩ := m
    have hv := hmembers (k, v) List.mem_cons_self
    have hname : ∀ cs, (⟨.name afterOpen, .object done name :: stack, depth + 1⟩ : Reader).run
        (e.literal k ++ ':' :: (v.chars e ++ cs)) =
        (⟨.next, .object ((k, v) :: done) "" :: stack, depth + 1⟩ : Reader).run cs := by
      intro cs
      have hstart : Reader.step ⟨.name afterOpen, .object done name :: stack, depth + 1⟩ '"' =
          ⟨.text true [], .object done name :: stack, depth + 1⟩ := by
        cases afterOpen <;> rfl
      rw [literal_append, Reader.run_step rfl rfl, hstart, run_literal he]
      simp only [Reader.endText, textOfUnits_codes, String.ofList_toList]
      show (⟨.value false, .object done k :: stack, depth + 1⟩ : Reader).run _ = _
      rw [hv _ _ _ _ hdepth]
      rfl
    cases more with
    | nil =>
      rw [memberChars, List.append_assoc, List.cons_append, hname]
      show (Reader.deliver ⟨.next, stack, depth⟩ (.object ((k, v) :: done).reverse)).run rest = _
      rw [List.reverse_cons]
    | cons m more =>
      have hsplit : memberChars e ((k, v) :: m :: more) ++ '\x7d' :: rest =
          e.literal k ++ ':' :: (v.chars e ++ ',' :: (memberChars e (m :: more) ++ '\x7d' :: rest)) := by
        simp [memberChars]
      rw [hsplit, hname]
      show (⟨.name false, .object ((k, v) :: done) "" :: stack, depth + 1⟩ : Reader).run _ = _
      rw [ih (fun u hu => hmembers u (List.mem_cons_of_mem _ hu)) (by simp)]
      simp

theorem reads_object (he : e.Known) (hmembers : ∀ m ∈ members, Reads e m.2 n) :
    Reads e (.object members) (n + 1) := by
  intro afterOpen stack depth rest hdepth
  have hstart : Reader.step ⟨.value afterOpen, stack, depth⟩ '\x7b' =
      ⟨.name true, .object [] "" :: stack, depth + 1⟩ := by
    have henter : Reader.enter ⟨.value afterOpen, stack, depth⟩ (.object [] "") (.name true) =
        ⟨.name true, .object [] "" :: stack, depth + 1⟩ := by
      rw [Reader.enter, if_pos (show depth < maxDepth by omega)]
    cases afterOpen <;> exact henter
  have hchars : (Value.object members).chars e ++ rest =
      '\x7b' :: (memberChars e members ++ '\x7d' :: rest) := by
    simp [Value.chars]
  rw [hchars, Reader.run_step rfl rfl, hstart]
  by_cases hne : members = []
  · rw [hne, memberChars, List.nil_append]
    rfl
  · exact run_members he hmembers hne (by omega) [] "" true rest

/-- A written value is the first value of every text that begins with it. -/
theorem first?_of_reads (h : Reads e v n) (hn : n ≤ maxDepth) (rest : List Char) :
    first? (v.chars e ++ rest) = some (v, rest) := by
  have hrun : Reader.start.run (v.chars e ++ rest) = (⟨.done v, [], 0⟩, rest) := by
    rw [Reader.start, h false [] 0 rest (by omega)]
    exact Reader.run_of_over rfl rest
  rw [first?, hrun]
  rfl

/-! ## Texts that are cut off -/

/-- No replacement character continues a literal name. -/
def Mode.plain : Mode → Bool
  | .word rest _ => !rest.contains '\ufffd'
  | _ => true

namespace Reader

theorem plain_deliver (r : Reader) (v : Value) : (r.deliver v).mode.plain = true := by
  unfold Reader.deliver
  split <;> rfl

theorem plain_leave (r : Reader) (v : Value) : (r.leave v).mode.plain = true := plain_deliver _ v

theorem plain_enter {m : Mode} (hm : m.plain = true) (r : Reader) (c : Container) :
    (r.enter c m).mode.plain = true := by
  unfold Reader.enter
  split
  · exact hm
  · rfl

theorem plain_endText (r : Reader) (isName : Bool) (units : List Nat) :
    (r.endText isName units).mode.plain = true := by
  unfold Reader.endText
  split
  · split <;> rfl
  · exact plain_deliver r _

theorem plain_startValue (r : Reader) (c : Char) : (r.startValue c).mode.plain = true := by
  unfold Reader.startValue
  split
  · exact plain_enter rfl r _
  · exact plain_enter rfl r _
  all_goals first | rfl | decide | skip
  split <;> rfl

theorem plain_afterValue (r : Reader) (c : Char) : (r.afterValue c).mode.plain = true := by
  unfold Reader.afterValue
  split
  · rfl
  · split
    · rfl
    · split
      · exact plain_leave r _
      · rfl
  · split
    · rfl
    · split
      · exact plain_leave r _
      · rfl

theorem plain_settle (h : r.mode.plain = true) (c : Char) : (r.settle c).mode.plain = true := by
  unfold Reader.settle
  split
  · split
    · exact h
    · split
      · exact plain_deliver r _
      · rfl
  · exact h

theorem plain_step (h : r.mode.plain = true) (c : Char) : (r.step c).mode.plain = true := by
  obtain ⟨mode, stack, depth⟩ := r
  cases mode with
  | value afterOpen =>
    simp only [Reader.step]
    split
    · rfl
    · split
      · exact plain_leave _ _
      · exact plain_startValue _ c
  | name afterOpen =>
    simp only [Reader.step]
    split
    · rfl
    · split
      · exact plain_leave _ _
      · split <;> rfl
  | colon =>
    simp only [Reader.step]
    split
    · rfl
    · split <;> rfl
  | next =>
    simp only [Reader.step]
    split
    · rfl
    · exact plain_afterValue _ c
  | text isName units =>
    simp only [Reader.step]
    split
    · exact plain_endText _ _ _
    · split
      · rfl
      · split <;> rfl
  | escape isName units | hex isName units left code =>
    simp only [Reader.step]
    split
    · rfl
    · split <;> rfl
  | word rest v =>
    rcases rest with - | ⟨x, - | ⟨y, more⟩⟩
    · rfl
    · simp only [Reader.step]
      split
      · exact plain_deliver _ v
      · rfl
    · simp only [Reader.step]
      split
      · simp only [Mode.plain, List.contains_cons, Bool.not_or, Bool.and_eq_true] at h ⊢
        exact h.2
      · rfl
  | number part acc =>
    simp only [Reader.step]
    split <;> rfl
  | done v => rfl
  | failed => rfl

theorem plain_run (h : r.mode.plain = true) (cs : List Char) : (r.run cs).1.mode.plain = true := by
  induction cs generalizing r with
  | nil => exact h
  | cons c cs ih =>
    rw [run_cons]
    split
    · exact plain_settle h c
    · exact ih (plain_step (plain_settle h c) c)

/-- A replacement character inside a string is part of it; everywhere else it is refused. -/
theorem step_replacement (hplain : r.mode.plain = true) (hover : r.over = false)
    (hnumber : ∀ part acc, r.mode ≠ .number part acc) :
    (r.step '\ufffd').mode = .failed ∨ ∃ isName units, (r.step '\ufffd').mode = .text isName units := by
  obtain ⟨mode, stack, depth⟩ := r
  cases mode with
  | value afterOpen | name afterOpen => cases afterOpen <;> exact Or.inl rfl
  | colon => exact Or.inl rfl
  | next => rcases stack with - | ⟨items | ⟨members, name⟩, more⟩ <;> exact Or.inl rfl
  | text isName units => exact Or.inr ⟨isName, _, rfl⟩
  | escape isName units => exact Or.inl rfl
  | hex isName units left code => exact Or.inl rfl
  | word rest v =>
    left
    rcases rest with - | ⟨x, - | ⟨y, more⟩⟩
    · rfl
    · simp only [Mode.plain, List.contains_cons, Bool.not_or, Bool.and_eq_true,
        Bool.not_eq_true'] at hplain
      simp only [Reader.step, hplain.1]
      rfl
    · simp only [Mode.plain, List.contains_cons, Bool.not_or, Bool.and_eq_true,
        Bool.not_eq_true'] at hplain
      simp only [Reader.step, hplain.1]
      rfl
  | number part acc => exact absurd rfl (hnumber part acc)
  | done v => cases hover
  | failed => cases hover

theorem finish?_of_failed (h : r.mode = .failed) (cs : List Char) : (r.run cs).1.finish? = none := by
  have hover : r.over = true := by
    unfold Reader.over
    rw [h]
  rw [run_of_over hover]
  unfold Reader.finish?
  rw [h]

/-- Replacement characters end nothing but numbers. -/
theorem number_of_finish? (hplain : r.mode.plain = true) (hover : r.over = false) (j : Nat)
    (h : (r.run (List.replicate j '\ufffd')).1.finish? = some v) : ∃ text, v = .number text := by
  -- by induction on the replacement characters: a string swallows them and never ends
  induction j generalizing r with
  | zero =>
    obtain ⟨mode, stack, depth⟩ := r
    change Reader.finish? ⟨mode, stack, depth⟩ = some v at h
    unfold Reader.finish? at h
    cases mode with
    | number part acc =>
      dsimp only at h
      split at h
      · exact ⟨_, (Option.some.inj h).symm⟩
      · cases h
    | done v => cases hover
    | _ => cases h
  | succ j ih =>
    rw [List.replicate_succ, run_cons] at h
    by_cases hnumber : ∃ part acc, r.mode = .number part acc
    · obtain ⟨part, acc, hmode⟩ := hnumber
      have hnext : part.next? '\ufffd' = none := by cases part <;> rfl
      obtain ⟨mode, stack, depth⟩ := r
      obtain rfl : mode = .number part acc := hmode
      have hsettle : Reader.settle ⟨.number part acc, stack, depth⟩ '\ufffd' =
          if part.complete then Reader.deliver ⟨.number part acc, stack, depth⟩
            (.number (String.ofList acc.reverse)) else Reader.fail ⟨.number part acc, stack, depth⟩ := by
        simp only [Reader.settle, hnext]
      rw [hsettle] at h
      split at h
      · -- a number that is complete is the value, or it is followed by what no container allows
        rcases stack with - | ⟨items | ⟨members, name⟩, more⟩
        · exact ⟨_, (Option.some.inj h).symm⟩
        · change (((Reader.fail ⟨.next, .array (_ :: items) :: more, depth⟩).run
            (List.replicate j '\ufffd')).1.finish? = some v) at h
          rw [finish?_of_failed rfl] at h
          cases h
        · change (((Reader.fail ⟨.next, .object ((name, _) :: members) "" :: more, depth⟩).run
            (List.replicate j '\ufffd')).1.finish? = some v) at h
          rw [finish?_of_failed rfl] at h
          cases h
      · cases h
    · have hsettle : r.settle '\ufffd' = r := by
        unfold Reader.settle
        split
        next part acc hmode => exact absurd ⟨part, acc, hmode⟩ hnumber
        next => rfl
      rw [hsettle, hover, if_neg Bool.false_ne_true] at h
      rcases step_replacement hplain hover fun part acc hm => hnumber ⟨part, acc, hm⟩ with
        hfail | ⟨isName, units, htext⟩
      · rw [finish?_of_failed hfail] at h
        cases h
      · refine ih ?_ ?_ h
        · rw [htext]
          rfl
        · unfold Reader.over
          rw [htext]

end Reader

/-- What is read first in a text that is cut off in the middle of a character: a number, or what is
read first in the whole text, and then all that was cut off is left over. -/
theorem first?_cut (front back : List Char) (j : Nat) {rest : List Char}
    (h : first? (front ++ List.replicate j '\ufffd') = some (v, rest)) :
    (∃ text, v = .number text) ∨ ∃ rest, first? (front ++ back) = some (v, rest ++ back) := by
  simp only [first?, Option.map_eq_some_iff] at h
  obtain ⟨v, hfinish, rfl, -⟩ := h
  rw [Reader.run_append] at hfinish
  have hplain : (Reader.start.run front).1.mode.plain = true := Reader.plain_run rfl front
  split at hfinish
  next hover =>
    right
    -- the value was complete before the cut
    refine ⟨(Reader.start.run front).2, ?_⟩
    simp only [first?, Reader.run_append, hover, if_true]
    rw [hfinish]
    rfl
  next hover =>
    left
    exact Reader.number_of_finish? hplain (by simpa using hover) j hfinish

end PollSocket.Json
