import PollSocket.Proofs.Poll.Takes

set_option autoImplicit false

/-!
# Takes that wait

A write leaves a token, and only a take that goes on for it uses it up. So as long as messages are queued there
is the token or a take that has just used it and is going to collect them (`History.Awake.after`), and if all
takes that are under way are parked the token is there.

A take that is woken by a token for nothing parks again. What it returns without messages it returns because it
was not to wait, because the queue is closed or because its time is over, and the reason can be traced back to
the moment it was parked (`History.Accounted.after`). Both together are `polls_wake`.
-/

namespace PollSocket.Poll

variable {now : Int} {cancelled : Bool} {phase : Phase} {s : Queue × Phase}

/-- Time that a new take is to wait. -/
def Move.wait? : Move → Option Int
  | .take wait _ => some wait
  | _ => none

theorem Move.wait?_of_taker? {m : Move} {i : Nat} (h : m.taker? = some i) : m.wait? = none := by
  cases m with
  | take => cases h
  | _ => rfl

/-- The take has used up a token and is going to look for messages. -/
def Phase.isWoken : Phase → Bool
  | .woken _ => true
  | _ => false

/-- A step of a take uses up a token, or takes all messages, or neither, and then it had no token. -/
theorem Queue.Steps.token {q : Queue} (h : q.Steps now cancelled phase s) :
    s.2.isWoken = true ∨ s.1.pending = [] ∨
      s.1.token = q.token ∧ s.1.pending = q.pending ∧ phase.isWoken = false := by
  cases h with
  | goes hgoes =>
    cases phase with
    | called wait => exact Or.inr (Or.inr ⟨rfl, rfl, rfl⟩)
    | admitted | woken =>
      refine Or.inr (Or.inl ?_)
      rw [go]
      dsimp only
      split <;> rfl
    | dismissed => exact Or.inr (Or.inl rfl)
    | parked | returned => cases hgoes
  | @wakes _ reason =>
    cases reason with
    | token => exact Or.inl rfl
    | _ => exact Or.inr (Or.inr ⟨rfl, rfl, rfl⟩)

namespace History

variable {h k : History} {i : Nat} {wait deadline : Int}

/-! ## Nobody is left asleep -/

/-- Queued messages have left the token, or a take has used it up and has not looked yet. -/
def Awake (h : History) : Prop :=
  h.queue.pending ≠ [] → h.queue.token = true ∨ ∃ phase ∈ h.phases, phase.isWoken = true

theorem Awake.after (ha : h.Awake) (m : Move) : (h.after m).Awake := by
  have hpasses := h.passes_after m
  generalize h.after m = k at hpasses ⊢
  cases hpasses with
  | refuse | skip | close | clock => exact ha
  | accept => exact fun _ => Or.inl rfl
  | take =>
    refine fun hpending => (ha hpending).imp_right fun ⟨phase, hmem, hwoken⟩ => ⟨phase, ?_, hwoken⟩
    rw [History.after, phases, List.map_append]
    exact List.mem_append_left _ hmem
  | cancel i =>
    intro hpending
    rw [phases_cancel]
    exact ha hpending
  | @step _ i x s _ hx hstep =>
    intro hpending
    have hi := getElem?_phases hx
    rw [phases_advance]
    rcases hstep.token with hwoken | hnil | ⟨htoken, hsame, hnot⟩
    · exact Or.inr ⟨s.2, List.mem_set (List.getElem?_eq_some_iff.1 hi).1 _, hwoken⟩
    · exact absurd hnil hpending
    · change s.1.pending ≠ [] at hpending
      rw [hsame] at hpending
      refine (ha hpending).imp htoken.trans ?_
      rintro ⟨woken, hmem, hwoken⟩
      -- the take that was woken is another one
      obtain ⟨j, hj⟩ := List.mem_iff_getElem?.1 hmem
      have hne : i ≠ j := by
        rintro rfl
        rw [hi, Option.some.injEq] at hj
        rw [hj, hwoken] at hnot
        cases hnot
      exact ⟨woken, List.mem_iff_getElem?.2 ⟨j, by rw [List.getElem?_set_ne hne, hj]⟩, hwoken⟩

/-- A parked take that finds a token goes on and returns what is queued. -/
theorem result?_of_token (hi : h.phases[i]? = some (.parked deadline)) (htoken : h.queue.token = true)
    (hpending : h.queue.pending ≠ []) :
    (([.wake i .token, .go i] : List Move).foldl History.after h).result? i = some (some h.queue.pending) := by
  rw [phases, List.getElem?_map] at hi
  obtain ⟨⟨phase, cancelled⟩, hx, hphase⟩ := Option.map_eq_some_iff.1 hi
  obtain rfl : phase = .parked deadline := hphase
  have hwoken : h.after (.wake i .token) =
      h.advance i ({ h.queue with token := false }, .woken deadline) := by
    simp only [History.after, hx, Queue.wakesFor, htoken]
    rfl
  have hnil : h.queue.pending.isEmpty = false := by simpa using hpending
  rw [List.foldl_cons, List.foldl_cons, hwoken]
  simp [History.after, History.advance, hx, Phase.goes, Queue.go, Queue.takePending, Phase.result?,
    History.result?, hnil]

/-! ## Nobody comes back for nothing -/

variable {past past' : History → Prop} {waits : List Int}

/-- In the past take `i` was parked until then, to wait for the time `wait`. -/
def ParkedUntil (past : History → Prop) (i : Nat) (wait deadline : Int) : Prop :=
  ∃ g, past g ∧ g.phases[i]? = some (.parked deadline) ∧ deadline = g.now + wait

/-- The queue is closed, or take `i` was parked and its time is over. -/
def Dismissed (past : History → Prop) (h : History) (i : Nat) (wait : Int) : Prop :=
  h.queue.closed = true ∨ ∃ deadline, ParkedUntil past i wait deadline ∧ deadline ≤ h.now

/-- What the phase of take `i` says about the time it is to wait. -/
def Accounts (past : History → Prop) (h : History) (i : Nat) (wait : Int) : Phase → Prop
  | .called time => time = wait
  | .admitted time => time = wait
  | .parked deadline => ParkedUntil past i wait deadline
  | .woken deadline => ParkedUntil past i wait deadline
  | .dismissed => Dismissed past h i wait
  | .returned result => result = some [] → wait ≤ 0 ∨ Dismissed past h i wait

/-- All takes account for their phases; they are to wait for the times `waits`. -/
structure Accounted (past : History → Prop) (h : History) (waits : List Int) : Prop where
  length : h.phases.length = waits.length
  accounts : ∀ i phase, h.phases[i]? = some phase →
    ∃ wait, waits[i]? = some wait ∧ Accounts past h i wait phase

theorem ParkedUntil.mono (hp : ParkedUntil past i wait deadline) (hpast : ∀ g, past g → past' g) :
    ParkedUntil past' i wait deadline := by
  obtain ⟨g, hg, hparked⟩ := hp
  exact ⟨g, hpast g hg, hparked⟩

section Later

variable (hpast : ∀ g, past g → past' g) (hclosed : h.queue.closed = true → k.queue.closed = true)
  (hnow : h.now ≤ k.now)
include hpast hclosed hnow

theorem Dismissed.mono (hd : Dismissed past h i wait) : Dismissed past' k i wait := by
  refine hd.imp hclosed ?_
  rintro ⟨deadline, hparked, hlate⟩
  exact ⟨deadline, hparked.mono hpast, hlate.trans hnow⟩

/-- A take to which nothing happens. -/
theorem Accounts.mono (ha : Accounts past h i wait phase) : Accounts past' k i wait phase := by
  cases phase with
  | called | admitted => exact ha
  | parked | woken => exact ParkedUntil.mono ha hpast
  | dismissed => exact Dismissed.mono hpast hclosed hnow ha
  | returned => exact fun hnil => (ha hnil).imp_right (Dismissed.mono hpast hclosed hnow)

end Later

/-- A take that does a step. -/
theorem Accounts.step (ha : Accounts past h i wait phase) (hstep : h.queue.Steps h.now cancelled phase s)
    (hpast : ∀ g, past g → past' g) (hk : past' k) (hphase : k.phases[i]? = some s.2)
    (hclosed : k.queue.closed = h.queue.closed) (hnow : k.now = h.now) : Accounts past' k i wait s.2 := by
  have hlater : Dismissed past h i wait → Dismissed past' k i wait :=
    Dismissed.mono hpast hclosed.trans hnow.ge
  cases hstep with
  | goes hgoes =>
    cases phase with
    | called time =>
      cases cancelled with
      | true => nofun
      | false => exact ha
    | admitted time =>
      obtain rfl : time = wait := ha
      rw [Queue.go] at hphase ⊢
      dsimp only at hphase ⊢
      split at hphase
      next hempty =>
        -- the take parks now
        rw [if_pos hempty]
        exact ⟨k, hk, hphase, by rw [hnow]⟩
      next hnot =>
        rw [if_neg hnot]
        intro hnil
        rw [Option.some.injEq] at hnil
        left
        simpa [hnil] using hnot
    | woken deadline =>
      rw [Queue.go]
      dsimp only
      split
      next => exact ParkedUntil.mono ha hpast
      next hnot =>
        intro hnil
        rw [Option.some.injEq] at hnil
        rw [hnil] at hnot
        exact absurd rfl hnot
    | dismissed => exact fun _ => Or.inr (hlater ha)
    | parked | returned => cases hgoes
  | @wakes deadline reason hwakes =>
    cases reason with
    | token => exact ParkedUntil.mono ha hpast
    | closed => exact hlater (Or.inl hwakes)
    | deadline => exact hlater (Or.inr ⟨deadline, ha, of_decide_eq_true hwakes⟩)
    | cancelled => nofun

theorem Accounted.after (ha : Accounted past h waits) (m : Move) (hpast : ∀ g, past g → past' g)
    (hnew : past' (h.after m)) : Accounted past' (h.after m) (waits ++ m.wait?.toList) := by
  have hpasses := h.passes_after m
  have hclosed : h.queue.closed = true → (h.after m).queue.closed = true := by
    intro hclosed
    have htraits := congrArg (fun e => e.2.2) (h.traits_after m)
    rwa [hclosed] at htraits
  generalize h.after m = k at hpasses hnew hclosed ⊢
  -- a take to which nothing happens has the number it had
  have hkept : h.now ≤ k.now → ∀ {i phase}, h.phases[i]? = some phase →
      ∃ wait, (waits ++ m.wait?.toList)[i]? = some wait ∧ Accounts past' k i wait phase := by
    intro hnow i phase hi
    obtain ⟨wait, hwait, haccounts⟩ := ha.accounts i phase hi
    refine ⟨wait, ?_, haccounts.mono hpast hclosed hnow⟩
    rw [List.getElem?_append_left (List.getElem?_eq_some_iff.1 hwait).1, hwait]
  have hsame : m.wait? = none → h.now ≤ k.now → k.phases = h.phases →
      Accounted past' k (waits ++ m.wait?.toList) := by
    intro hm hnow hphases
    exact ⟨by simp [hm, hphases, ha.length], fun i phase hi => hkept hnow (by rwa [← hphases])⟩
  cases hpasses with
  | refuse | accept | close => exact hsame rfl le_rfl rfl
  | skip hm => exact hsame (Move.wait?_of_taker? hm) le_rfl rfl
  | clock => exact hsame rfl (le_max_left _ _) rfl
  | cancel i => exact hsame rfl le_rfl (h.phases_cancel i)
  | take wait cancelled =>
    have hphases : (h.after (.take wait cancelled)).phases = h.phases ++ [.called wait] := List.map_append
    refine ⟨by simp [hphases, ha.length, Move.wait?], fun i phase hi => ?_⟩
    rw [hphases] at hi
    rcases Nat.lt_or_ge i h.phases.length with hlt | hge
    · rw [List.getElem?_append_left hlt] at hi
      exact hkept le_rfl hi
    · obtain rfl : i = h.phases.length := by
        have hlt := (List.getElem?_eq_some_iff.1 hi).1
        rw [List.length_append, List.length_singleton] at hlt
        omega
      rw [List.getElem?_concat_length, Option.some.injEq] at hi
      subst hi
      exact ⟨wait, by rw [ha.length]; exact List.getElem?_concat_length, rfl⟩
  | @step _ i x s hm hx hstep =>
    have hi := getElem?_phases hx
    refine ⟨by simp [Move.wait?_of_taker? hm, phases_advance, ha.length], fun j phase hj => ?_⟩
    by_cases hij : i = j
    · subst hij
      obtain ⟨wait, hwait, haccounts⟩ := ha.accounts i x.phase hi
      have hphase : (h.advance i s).phases[i]? = some s.2 := by
        rw [phases_advance, List.getElem?_set_self (List.getElem?_eq_some_iff.1 hi).1]
      rw [hphase, Option.some.injEq] at hj
      subst hj
      rw [Move.wait?_of_taker? hm, Option.toList_none, List.append_nil]
      exact ⟨wait, hwait, haccounts.step hstep hpast hnew hphase (congrArg (fun e => e.2.2) hstep.traits) rfl⟩
    · rw [phases_advance, List.getElem?_set_ne hij] at hj
      exact hkept le_rfl hj

end History

section Run

variable (session : String) (limit patience : Int)

theorem awake_run (moves : List Move) : (run session limit patience moves).Awake := by
  induction moves using List.reverseRecOn with
  | nil => exact fun hpending => absurd rfl hpending
  | append_singleton front m ih =>
    rw [run_concat]
    exact ih.after m

theorem accounted_run (moves : List Move) :
    History.Accounted (fun g => ∃ front, front <+: moves ∧ run session limit patience front = g)
      (run session limit patience moves) (moves.filterMap Move.wait?) := by
  induction moves using List.reverseRecOn with
  | nil => exact ⟨rfl, nofun⟩
  | append_singleton front m ih =>
    rw [run_concat, List.filterMap_append]
    refine ih.after m ?_ ⟨front ++ [m], List.prefix_rfl, run_concat session limit patience front m⟩
    rintro g ⟨earlier, hearlier, hg⟩
    exact ⟨earlier, hearlier.trans (List.prefix_append front [m]), hg⟩

/-- However takes, writes, closing, giving up and the clock are interleaved: if all takes under way are parked
and messages are queued then there is a token, and every parked take can go on for it and return all of them.
And a take has returned without messages only if it was not to wait, if the queue is closed, or if the time
that it was to wait is over since it was parked, whatever tokens were left from before. -/
theorem polls_wake (moves : List Move) :
    let h := run session limit patience moves
    ((∀ phase ∈ h.phases, phase.result? = none → ∃ deadline, phase = .parked deadline) →
      h.queue.pending ≠ [] → h.queue.token = true ∧
        ∀ i deadline, h.phases[i]? = some (.parked deadline) →
          (([.wake i .token, .go i] : List Move).foldl History.after h).result? i = some (some h.queue.pending)) ∧
    (∀ i, h.result? i = some (some []) →
      ∃ wait, (moves.filterMap Move.wait?)[i]? = some wait ∧
        (wait ≤ 0 ∨ h.queue.closed = true ∨ ∃ front, front <+: moves ∧
          let g := run session limit patience front
          g.phases[i]? = some (.parked (g.now + wait)) ∧ g.now + wait ≤ h.now)) := by
  intro h
  constructor
  · intro hparked hpending
    have htoken : h.queue.token = true := by
      rcases awake_run session limit patience moves hpending with htoken | ⟨phase, hmem, hwoken⟩
      · exact htoken
      · -- a take that was woken is under way, and not parked
        have hunder : phase.result? = none := by
          cases phase with
          | woken => rfl
          | called | admitted | parked | dismissed | returned => cases hwoken
        obtain ⟨deadline, rfl⟩ := hparked phase hmem hunder
        cases hwoken
    exact ⟨htoken, fun i deadline hi => History.result?_of_token hi htoken hpending⟩
  · intro i hreturned
    rw [History.result?_eq] at hreturned
    obtain ⟨phase, hi, hresult⟩ := Option.bind_eq_some_iff.1 hreturned
    obtain ⟨wait, hwait, haccounts⟩ := (accounted_run session limit patience moves).accounts i phase hi
    refine ⟨wait, hwait, ?_⟩
    cases phase with
    | returned result =>
      refine (haccounts (Option.some.inj hresult)).imp_right (Or.imp_right ?_)
      rintro ⟨deadline, ⟨g, ⟨front, hfront, rfl⟩, hparked, rfl⟩, hlate⟩
      exact ⟨front, hfront, hparked, hlate⟩
    | called | admitted | parked | woken | dismissed => cases hresult

end Run

/-- The second take is woken by the token of what the first one has returned, and parks again. -/
def wokenForNothing : List Move :=
  [.write "a", .take 5 false, .go 0, .go 0, .take 10 false, .go 1, .go 1, .wake 1 .token, .go 1]

/-- A message that comes then has a token again; without one, the take returns when its time is over. -/
theorem polls_wake_wokenForNothing :
    let h := run "id" 2 0 (wokenForNothing ++ [.write "b"])
    let g := run "id" 2 0 (wokenForNothing ++ [.clock 10, .wake 1 .deadline, .go 1])
    (h.phases[1]? = some (.parked 10) ∧ h.queue.token = true ∧
      (([.wake 1 .token, .go 1] : List Move).foldl History.after h).result? 1 = some (some ["b"])) ∧
    (g.result? 1 = some (some []) ∧ g.queue.closed = false ∧
      ∃ front, front <+: wokenForNothing ++ [.clock 10, .wake 1 .deadline, .go 1] ∧
        let before := run "id" 2 0 front
        before.phases[1]? = some (.parked (before.now + 10)) ∧ before.now + 10 ≤ g.now) := by
  have hrun :
      let h := run "id" 2 0 (wokenForNothing ++ [.write "b"])
      let g := run "id" 2 0 (wokenForNothing ++ [.clock 10, .wake 1 .deadline, .go 1])
      (h.phases = [.returned (some ["a"]), .parked 10] ∧ h.queue.pending = ["b"]) ∧
      g.result? 1 = some (some []) ∧ g.queue.closed = false := by
    decide +kernel
  have hwakes := (polls_wake "id" 2 0 (wokenForNothing ++ [.write "b"])).1
  have hreturns := (polls_wake "id" 2 0 (wokenForNothing ++ [.clock 10, .wake 1 .deadline, .go 1])).2 1
  generalize run "id" 2 0 (wokenForNothing ++ [.write "b"]) = h at hrun hwakes ⊢
  generalize run "id" 2 0 (wokenForNothing ++ [.clock 10, .wake 1 .deadline, .go 1]) = g at hrun hreturns ⊢
  obtain ⟨⟨hphases, hpending⟩, hnil, hopen⟩ := hrun
  have hparked : ∀ phase ∈ h.phases, phase.result? = none → ∃ deadline, phase = .parked deadline := by
    rw [hphases]
    exact List.forall_mem_cons.2 ⟨nofun, List.forall_mem_singleton.2 fun _ => ⟨10, rfl⟩⟩
  have hi : h.phases[1]? = some (.parked 10) := by rw [hphases]; rfl
  obtain ⟨htoken, hcollects⟩ := hwakes hparked (by simp [hpending])
  have hcollected := hcollects 1 10 hi
  rw [hpending] at hcollected
  obtain ⟨wait, hwait, hreason⟩ := hreturns hnil
  obtain rfl : 10 = wait := Option.some.inj hwait
  rcases hreason with hnow | hclosed | hparked
  · cases hnow
  · cases hopen.symm.trans hclosed
  · exact ⟨⟨hi, htoken, hcollected⟩, hnil, hopen, hparked⟩

end PollSocket.Poll
