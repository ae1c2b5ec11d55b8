import Mathlib
import PollSocket.Poll.Queue

set_option autoImplicit false

/-!
# Takes of a queue, step by step

Any number of takes may be under way on one queue while messages are written, callers give up, the queue is
closed and the clock moves. A take first looks whether its caller has given up, then takes what there is, and
if that is nothing and there is time to wait it is parked. A parked take goes on for one of four reasons, and
where several of them hold it may be any: there is a token, the queue is closed, time is up, or the caller
has given up. `Queue.startTake` and `Queue.resumeTake` are such steps done one after another
(`startTake_eq_go`, `resumeTake_eq_go`).

A step of a take hands over the whole queue or leaves it whole (`History.changes_after`), so that what takes
have returned, followed by what is queued, is what was accepted (`pending_conserved`).
-/

namespace PollSocket.Poll

variable {i : Nat} {r : Option (List String)}

/-- How far a take has come. -/
inductive Phase where
  /-- It has not looked yet whether its caller has given up. -/
  | called (wait : Int)
  /-- Its caller had not given up when it looked. -/
  | admitted (wait : Int)
  /-- It has found nothing and waits. -/
  | parked (deadline : Int)
  /-- It has used up a token, which may be left from before. -/
  | woken (deadline : Int)
  /-- The queue is closed or time is up. -/
  | dismissed
  | returned (result : Option (List String))
  deriving DecidableEq

namespace Phase

/-- What a take has returned, once it has. -/
def result? : Phase → Option (Option (List String))
  | .returned result => some result
  | _ => none

/-- The take goes on by itself. -/
def goes : Phase → Bool
  | .parked _ => false
  | .returned _ => false
  | _ => true

theorem result?_of_goes {phase : Phase} (h : phase.goes = true) : phase.result? = none := by
  cases phase with
  | parked | returned => cases h
  | _ => rfl

/-- The state that a take shows between its steps, if it has to wait or is done. -/
def take? : Phase → Option Take
  | .parked deadline => some (.waiting deadline)
  | .returned result => some (.done result)
  | _ => none

end Phase

namespace Queue

/-- A parked take goes on for a reason. -/
def wake (q : Queue) (now deadline : Int) : Wake → Queue × Phase
  | .token => ({ q with token := false }, .woken deadline)
  | .closed => (q, .dismissed)
  | .deadline => (q, .dismissed)
  | .cancelled => (q.touch now, .returned none)

/-- The next step of a take that goes on by itself. -/
def go (q : Queue) (now : Int) (cancelled : Bool) : Phase → Queue × Phase
  | .called wait => (q.touch now, if cancelled then .returned none else .admitted wait)
  | .admitted wait =>
    let (q, messages) := q.takePending
    if messages.isEmpty && 0 < wait then (q, .parked (now + wait))
    else (q.touch now, .returned (some messages))
  | .woken deadline =>
    let (q, messages) := q.takePending
    if messages.isEmpty then (q, .parked deadline) else (q.touch now, .returned (some messages))
  | .dismissed =>
    let (q, messages) := q.takePending
    (q.touch now, .returned (some messages))
  | phase => (q, phase)

/-! ## The steps that takes are made of -/

/-- The start of a take is its first two steps. -/
theorem startTake_eq_go (q : Queue) (now : Int) (cancelled : Bool) (wait : Int) :
    let s := q.go now cancelled (.called wait)
    let s' := s.1.go now cancelled s.2
    s'.1 = (q.startTake now cancelled wait).1 ∧ s'.2.take? = some (q.startTake now cancelled wait).2 := by
  cases cancelled with
  | true => exact ⟨rfl, rfl⟩
  | false =>
    by_cases hempty : q.pending.isEmpty && 0 < wait
    · simp [go, startTake, takePending, touch, Phase.take?, hempty]
    · simp [go, startTake, takePending, touch, Phase.take?, hempty]

theorem wakesFor_of_reason {q : Queue} {now deadline : Int} {cancelled : Bool} {preferred reason : Wake}
    (h : q.reason? now cancelled deadline preferred = some reason) :
    q.wakesFor now cancelled deadline reason = true :=
  List.find?_some h

/-- A reason that holds is the one, if it is preferred. -/
theorem reason?_of_wakesFor {q : Queue} {now deadline : Int} {cancelled : Bool} {reason : Wake}
    (h : q.wakesFor now cancelled deadline reason = true) :
    q.reason? now cancelled deadline reason = some reason :=
  List.find?_cons_of_pos h

/-- A take that looks again goes on for its reason, and takes what there is. -/
theorem resumeTake_eq_go {q : Queue} {now deadline : Int} {cancelled : Bool} {preferred reason : Wake}
    (h : q.reason? now cancelled deadline preferred = some reason) :
    let s := q.wake now deadline reason
    let s' := s.1.go now cancelled s.2
    s'.1 = (q.resumeTake now cancelled deadline preferred).1 ∧
      s'.2.take? = some (q.resumeTake now cancelled deadline preferred).2 := by
  rw [resumeTake, h]
  cases reason with
  | token =>
    by_cases hempty : q.pending = []
    · simp [wake, go, takePending, Phase.take?, hempty]
    · simp [wake, go, takePending, Phase.take?, hempty]
  | closed | deadline | cancelled => exact ⟨rfl, rfl⟩

/-- What a step of a take does to the messages: it hands over all of them, or leaves all of them, and then
the take may have been given up. -/
inductive Yields (q : Queue) : Queue × Phase → Prop where
  | hands {q' : Queue} (hpending : q'.pending = []) : Yields q (q', .returned (some q.pending))
  | abandons {q' : Queue} (hpending : q'.pending = q.pending) : Yields q (q', .returned none)
  | goesOn {q' : Queue} {phase : Phase} (hpending : q'.pending = q.pending)
    (hphase : phase.result? = none) : Yields q (q', phase)

/-- What a step of a take can be: it goes on by itself, or it is parked and goes on for a reason. -/
inductive Steps (q : Queue) (now : Int) (cancelled : Bool) : Phase → Queue × Phase → Prop where
  | goes {phase : Phase} (h : phase.goes = true) : Steps q now cancelled phase (q.go now cancelled phase)
  | wakes {deadline : Int} {reason : Wake} (h : q.wakesFor now cancelled deadline reason = true) :
    Steps q now cancelled (.parked deadline) (q.wake now deadline reason)

/-- What stays as it is in a queue, as long as nobody closes it. -/
def traits (q : Queue) : String × Int × Bool := (q.session, q.limit, q.closed)

section Steps

variable {q : Queue} {now : Int} {cancelled : Bool} {phase : Phase} {s : Queue × Phase}

variable (h : q.Steps now cancelled phase s)
include h

theorem Steps.result? : phase.result? = none := by
  cases h with
  | goes hgoes => exact Phase.result?_of_goes hgoes
  | wakes => rfl

theorem Steps.yields : q.Yields s := by
  cases h with
  | goes hgoes =>
    cases phase with
    | called wait =>
      cases cancelled with
      | true => exact .abandons rfl
      | false => exact .goesOn rfl rfl
    | admitted wait =>
      rw [go]
      dsimp only [takePending]
      split
      next hempty =>
        rw [Bool.and_eq_true, List.isEmpty_iff] at hempty
        exact .goesOn hempty.1.symm rfl
      next => exact .hands rfl
    | woken deadline =>
      rw [go]
      dsimp only [takePending]
      split
      next hempty => exact .goesOn (List.isEmpty_iff.1 hempty).symm rfl
      next => exact .hands rfl
    | dismissed => exact .hands rfl
    | parked | returned => cases hgoes
  | @wakes _ reason =>
    cases reason with
    | token | closed | deadline => exact .goesOn rfl rfl
    | cancelled => exact .abandons rfl

theorem Steps.traits : s.1.traits = q.traits := by
  cases h with
  | goes =>
    cases phase with
    | admitted | woken =>
      rw [go]
      dsimp only
      split <;> rfl
    | _ => rfl
  | @wakes _ reason => cases reason <;> rfl

end Steps

/-! ## Writing -/

variable (q : Queue) (text : String)

theorem full_iff : q.full = true ↔ 0 < q.limit ∧ q.limit ≤ q.pending.length := by
  rw [full, Bool.and_eq_true, decide_eq_true_eq, decide_eq_true_eq]

theorem write_of_closed (h : q.closed = true) : q.write text = (q, .error .transportClosed) := by
  rw [write, if_pos h]

theorem write_of_full (hopen : q.closed = false) (h : q.full = true) :
    q.write text = (q, .error (.queueFull q.session)) := by
  rw [write, if_neg (by simp [hopen]), if_pos h]

theorem write_of_room (hopen : q.closed = false) (h : q.full = false) :
    q.write text = ({ q with pending := q.pending ++ [text], token := true }, .ok ()) := by
  rw [write, if_neg (by simp [hopen]), if_neg (by simp [h])]

/-- A queue that refuses a message stays as it is. -/
theorem eq_of_write_error {q' : Queue} {f : Failure} (h : q.write text = (q', .error f)) : q' = q := by
  cases hclosed : q.closed with
  | true =>
    rw [q.write_of_closed text hclosed] at h
    exact (Prod.mk.inj h).1.symm
  | false =>
    cases hfull : q.full with
    | true =>
      rw [q.write_of_full text hclosed hfull] at h
      exact (Prod.mk.inj h).1.symm
    | false =>
      rw [q.write_of_room text hclosed hfull] at h
      cases (Prod.mk.inj h).2

/-- An open queue refuses a message exactly if it is full. -/
theorem write_ne_ok_iff (hopen : q.closed = false) : (q.write text).2 ≠ .ok () ↔ q.full = true := by
  cases hfull : q.full with
  | true => simp [q.write_of_full text hopen hfull]
  | false => simp [q.write_of_room text hopen hfull]

end Queue

/-! ## Histories -/

/-- A take that was called. -/
structure Taker where
  phase : Phase
  /-- The caller has given up. -/
  cancelled : Bool := false

/-- What can happen next. -/
inductive Move where
  | write (text : String)
  /-- A take is called, by somebody who may have given up already. -/
  | take (wait : Int) (cancelled : Bool)
  /-- A take that goes on by itself does its next step. -/
  | go (i : Nat)
  /-- A parked take goes on for a reason, if it holds. -/
  | wake (i : Nat) (reason : Wake)
  /-- The caller of a take gives up. -/
  | cancel (i : Nat)
  | close
  | clock (now : Int)
  deriving DecidableEq

/-- The take that a move is a step of. -/
def Move.taker? : Move → Option Nat
  | .go i => some i
  | .wake i _ => some i
  | _ => none

/-- A queue with its clock and its takes, and what has come of them. -/
structure History where
  queue : Queue
  now : Int := 0
  takers : List Taker := []
  /-- Messages whose writes were successful, oldest first. -/
  accepted : List String := []
  /-- What takes have returned, in the order in which they did. -/
  results : List (Nat × Option (List String)) := []

namespace History

/-- Take `i` has done a step. -/
def advance (h : History) (i : Nat) (s : Queue × Phase) : History :=
  { h with
    queue := s.1
    takers := h.takers.modify i fun x => { x with phase := s.2 }
    results := h.results ++ (s.2.result?.map (Prod.mk i)).toList }

/-- The history after a move. A move that is not possible changes nothing. -/
def after (h : History) : Move → History
  | .write text =>
    match h.queue.write text with
    | (queue, .ok _) => { h with queue, accepted := h.accepted ++ [text] }
    | (queue, .error _) => { h with queue }
  | .take wait cancelled => { h with takers := h.takers ++ [{ phase := .called wait, cancelled }] }
  | .go i =>
    match h.takers[i]? with
    | some x => if x.phase.goes then h.advance i (h.queue.go h.now x.cancelled x.phase) else h
    | none => h
  | .wake i reason =>
    match h.takers[i]? with
    | some { phase := .parked deadline, cancelled } =>
      if h.queue.wakesFor h.now cancelled deadline reason then
        h.advance i (h.queue.wake h.now deadline reason)
      else h
    | _ => h
  | .cancel i => { h with takers := h.takers.modify i fun x => { x with cancelled := true } }
  | .close => { h with queue := h.queue.close }
  | .clock now => { h with now := max h.now now }

/-- What take `i` has returned, once it has. -/
def result? (h : History) (i : Nat) : Option (Option (List String)) :=
  h.takers[i]?.bind fun x => x.phase.result?

/-- Messages that takes have returned. -/
def handed (h : History) : List String := h.results.flatMap fun e => e.2.getD []

end History

/-- The history of a new queue. -/
def run (session : String) (limit patience : Int) (moves : List Move) : History :=
  moves.foldl History.after { queue := { session, limit, patience, lastActivity := 0 } }

namespace History

variable {h k : History}

/-- What a move does: a message is accepted, a take returns, or neither. -/
inductive Changes (h : History) (m : Move) (k : History) : Prop where
  | accepts {text : String} (hm : m = .write text) (hopen : h.queue.closed = false)
    (hroom : h.queue.full = false) (hpending : k.queue.pending = h.queue.pending ++ [text])
    (haccepted : k.accepted = h.accepted ++ [text]) (hresults : k.results = h.results)
    (hresult : ∀ j, k.result? j = h.result? j)
  | hands {i : Nat} (hm : m.taker? = some i) (hnew : h.result? i = none) (hpending : k.queue.pending = [])
    (haccepted : k.accepted = h.accepted) (hresults : k.results = h.results ++ [(i, some h.queue.pending)])
    (hresult : ∀ j, k.result? j = if j = i then some (some h.queue.pending) else h.result? j)
  | abandons {i : Nat} (hm : m.taker? = some i) (hnew : h.result? i = none)
    (hpending : k.queue.pending = h.queue.pending) (haccepted : k.accepted = h.accepted)
    (hresults : k.results = h.results ++ [(i, none)])
    (hresult : ∀ j, k.result? j = if j = i then some none else h.result? j)
  | keeps (hpending : k.queue.pending = h.queue.pending) (haccepted : k.accepted = h.accepted)
    (hresults : k.results = h.results) (hresult : ∀ j, k.result? j = h.result? j)

/-- How far the takes have come, in the order in which they were called. -/
def phases (h : History) : List Phase := h.takers.map Taker.phase

theorem result?_eq (h : History) (i : Nat) : h.result? i = h.phases[i]?.bind Phase.result? := by
  rw [phases, List.getElem?_map, Option.bind_map]
  rfl

theorem getElem?_phases {x : Taker} (hx : h.takers[i]? = some x) : h.phases[i]? = some x.phase := by
  rw [phases, List.getElem?_map, hx, Option.map_some]

theorem phases_advance (h : History) (i : Nat) (s : Queue × Phase) :
    (h.advance i s).phases = h.phases.set i s.2 := by
  refine List.ext_getElem? fun j => ?_
  rw [phases, phases, advance, List.getElem?_map]
  by_cases hj : i = j
  · subst hj
    by_cases hlt : i < h.takers.length <;> simp [hlt]
  · simp [hj]

theorem phases_cancel (h : History) (i : Nat) : (h.after (.cancel i)).phases = h.phases := by
  refine List.ext_getElem? fun j => ?_
  rw [phases, phases, after, List.getElem?_map, List.getElem?_map, List.getElem?_modify]
  by_cases hj : i = j
  · cases h.takers[j]? <;> simp [hj]
  · simp [hj]

/-- What a move can be when it is made. -/
inductive Passes (h : History) : Move → History → Prop where
  | refuse {text : String} : Passes h (.write text) h
  | accept {text : String} (hopen : h.queue.closed = false) (hroom : h.queue.full = false) :
    Passes h (.write text)
      { h with
        queue := { h.queue with pending := h.queue.pending ++ [text], token := true }
        accepted := h.accepted ++ [text] }
  | take (wait : Int) (cancelled : Bool) : Passes h (.take wait cancelled) (h.after (.take wait cancelled))
  | skip {m : Move} {i : Nat} (hm : m.taker? = some i) : Passes h m h
  | step {m : Move} {i : Nat} {x : Taker} {s : Queue × Phase} (hm : m.taker? = some i)
    (hx : h.takers[i]? = some x) (hstep : h.queue.Steps h.now x.cancelled x.phase s) :
    Passes h m (h.advance i s)
  | cancel (i : Nat) : Passes h (.cancel i) (h.after (.cancel i))
  | close : Passes h .close (h.after .close)
  | clock (now : Int) : Passes h (.clock now) (h.after (.clock now))

theorem passes_after (h : History) (m : Move) : h.Passes m (h.after m) := by
  cases m with
  | write text =>
    rw [after]
    cases hclosed : h.queue.closed with
    | true =>
      rw [h.queue.write_of_closed text hclosed]
      exact .refuse
    | false =>
      cases hfull : h.queue.full with
      | true =>
        rw [h.queue.write_of_full text hclosed hfull]
        exact .refuse
      | false =>
        rw [h.queue.write_of_room text hclosed hfull]
        exact .accept hclosed hfull
  | go i =>
    rw [after]
    split
    next x hx =>
      split
      next hgoes => exact .step rfl hx (.goes hgoes)
      next => exact .skip rfl
    next => exact .skip rfl
  | wake i reason =>
    rw [after]
    split
    next deadline cancelled hx =>
      split
      next hwakes => exact .step rfl hx (.wakes hwakes)
      next => exact .skip rfl
    next => exact .skip rfl
  | take wait cancelled => exact .take wait cancelled
  | cancel i => exact .cancel i
  | close => exact .close
  | clock now => exact .clock now

/-- A step of a take that has not returned. -/
theorem changes_advance {m : Move} {x : Taker} (hm : m.taker? = some i) (hx : h.takers[i]? = some x)
    {s : Queue × Phase} (hs : h.queue.Steps h.now x.cancelled x.phase s) : h.Changes m (h.advance i s) := by
  have hphase := getElem?_phases hx
  have hi : h.result? i = none := by rw [result?_eq, hphase, Option.bind_some, hs.result?]
  have hresult : ∀ j, (h.advance i s).result? j = if j = i then s.2.result? else h.result? j := by
    intro j
    rw [result?_eq, phases_advance, result?_eq]
    split
    next hj => rw [hj, List.getElem?_set_self (List.getElem?_eq_some_iff.1 hphase).1, Option.bind_some]
    next hj => rw [List.getElem?_set_ne (Ne.symm hj)]
  cases hs.yields with
  | hands hpending => exact .hands hm hi hpending rfl rfl hresult
  | abandons hpending => exact .abandons hm hi hpending rfl rfl hresult
  | goesOn hpending hphase =>
    refine .keeps hpending rfl ?_ fun j => ?_
    · simp [advance, hphase]
    · rw [hresult, hphase]
      split
      next hj => rw [hj, hi]
      next => rfl

theorem changes_after (h : History) (m : Move) : h.Changes m (h.after m) := by
  have hpasses := h.passes_after m
  generalize h.after m = k at hpasses ⊢
  cases hpasses with
  | refuse | skip | close | clock => exact .keeps rfl rfl rfl fun _ => rfl
  | accept hopen hroom => exact .accepts rfl hopen hroom rfl rfl rfl fun _ => rfl
  | take wait cancelled =>
    refine .keeps rfl rfl rfl fun j => ?_
    rw [after, result?, result?]
    rcases Nat.lt_trichotomy j h.takers.length with hlt | rfl | hgt
    · rw [List.getElem?_append_left hlt]
    · -- the take that is new has not returned
      rw [List.getElem?_concat_length, List.getElem?_eq_none le_rfl]
      rfl
    · rw [List.getElem?_eq_none (by simpa using hgt), List.getElem?_eq_none hgt.le]
  | step hm hx hstep => exact changes_advance hm hx hstep
  | cancel i =>
    refine .keeps rfl rfl rfl fun j => ?_
    rw [result?_eq, phases_cancel, result?_eq]

/-- Session and limit stay, and only closing closes. -/
theorem traits_after (h : History) (m : Move) :
    (h.after m).queue.traits =
      (h.queue.session, h.queue.limit, h.queue.closed || decide (m = .close)) := by
  have hpasses := h.passes_after m
  generalize h.after m = k at hpasses ⊢
  have hsame : m ≠ .close → k.queue.traits = h.queue.traits →
      k.queue.traits = (h.queue.session, h.queue.limit, h.queue.closed || decide (m = .close)) := by
    intro hm hk
    rw [hk, decide_eq_false hm, Bool.or_false, Queue.traits]
  cases hpasses with
  | skip hm =>
    refine hsame ?_ rfl
    rintro rfl
    cases hm
  | step hm hx hstep =>
    refine hsame ?_ hstep.traits
    rintro rfl
    cases hm
  | close => simp [after, Queue.close, Queue.traits]
  | _ => exact hsame nofun rfl

/-- What holds after every move of a queue with a limit. -/
structure Sound (h : History) : Prop where
  /-- A take returns once. -/
  once : (h.results.map Prod.fst).Nodup
  recorded : ∀ i r, (i, r) ∈ h.results ↔ h.result? i = some r
  conserved : h.handed ++ h.queue.pending = h.accepted
  fits : 0 < h.queue.limit → (h.queue.pending.length : Int) ≤ h.queue.limit

theorem handed_append (hresults : k.results = h.results ++ [(i, r)]) : k.handed = h.handed ++ r.getD [] := by
  rw [handed, hresults, List.flatMap_append, List.flatMap_singleton]
  rfl

/-- A take returns: it has not done so before. -/
theorem Sound.records (hs : h.Sound) (hnew : h.result? i = none)
    (hresults : k.results = h.results ++ [(i, r)])
    (hresult : ∀ j, k.result? j = if j = i then some r else h.result? j) :
    (k.results.map Prod.fst).Nodup ∧ ∀ j r', (j, r') ∈ k.results ↔ k.result? j = some r' := by
  constructor
  · rw [hresults, List.map_append, List.nodup_append]
    refine ⟨hs.once, List.nodup_singleton i, ?_⟩
    rintro j hj _ hi rfl
    obtain ⟨e, hmem, he⟩ := List.mem_map.1 hj
    have hold : h.result? e.1 = some e.2 := (hs.recorded e.1 e.2).1 hmem
    rw [he, List.mem_singleton.1 hi, hnew] at hold
    cases hold
  · intro j r'
    rw [hresults, List.mem_append, List.mem_singleton, hs.recorded, hresult]
    split
    next hj =>
      subst hj
      simp [hnew, eq_comm]
    next hj => simp [hj]

theorem Sound.after (hs : h.Sound) (m : Move) : (h.after m).Sound := by
  have htraits := h.traits_after m
  have hchanges := h.changes_after m
  generalize h.after m = k at htraits hchanges
  obtain ⟨-, hlimit, -⟩ : k.queue.session = h.queue.session ∧ k.queue.limit = h.queue.limit ∧ _ := by
    simpa [Queue.traits] using htraits
  -- nothing is longer than before
  have hfits : k.queue.pending = h.queue.pending ∨ k.queue.pending = [] →
      0 < k.queue.limit → (k.queue.pending.length : Int) ≤ k.queue.limit := by
    rintro (hsame | hnil) hpos
    · rw [hsame, hlimit]
      exact hs.fits (hlimit ▸ hpos)
    · rw [hnil]
      exact hpos.le
  cases hchanges with
  | accepts _ _ hroom hpending haccepted hresults hresult =>
    constructor
    · rw [hresults]
      exact hs.once
    · intro i r
      rw [hresults, hresult, hs.recorded]
    · rw [handed, hresults, hpending, haccepted, ← hs.conserved, List.append_assoc]
      rfl
    · intro hpos
      have hless : ¬ (0 < h.queue.limit ∧ h.queue.limit ≤ h.queue.pending.length) := by
        rw [← Queue.full_iff, hroom]
        exact Bool.false_ne_true
      rw [hpending, List.length_append, List.length_singleton]
      omega
  | hands _ hnew hpending haccepted hresults hresult =>
    obtain ⟨honce, hrecorded⟩ := hs.records hnew hresults hresult
    refine ⟨honce, hrecorded, ?_, hfits (Or.inr hpending)⟩
    rw [handed_append hresults, hpending, haccepted, List.append_nil]
    exact hs.conserved
  | abandons _ hnew hpending haccepted hresults hresult =>
    obtain ⟨honce, hrecorded⟩ := hs.records hnew hresults hresult
    refine ⟨honce, hrecorded, ?_, hfits (Or.inl hpending)⟩
    rw [handed_append hresults, hpending, haccepted, Option.getD_none, List.append_nil]
    exact hs.conserved
  | keeps hpending haccepted hresults hresult =>
    refine ⟨?_, ?_, ?_, hfits (Or.inl hpending)⟩
    · rw [hresults]
      exact hs.once
    · intro i r
      rw [hresults, hresult, hs.recorded]
    · rw [handed, hresults, hpending, haccepted]
      exact hs.conserved

end History

/-! ## Runs -/

section Run

variable (session : String) (limit patience : Int)

theorem run_concat (moves : List Move) (m : Move) :
    run session limit patience (moves ++ [m]) = (run session limit patience moves).after m :=
  List.foldl_append

theorem sound_run (moves : List Move) : (run session limit patience moves).Sound := by
  induction moves using List.reverseRecOn with
  | nil =>
    constructor
    · exact List.nodup_nil
    · intro i r
      simp [run, History.result?]
    · rfl
    · intro hpos
      exact hpos.le
  | append_singleton front m ih =>
    rw [run_concat]
    exact ih.after m

theorem traits_run (moves : List Move) :
    (run session limit patience moves).queue.traits = (session, limit, decide (.close ∈ moves)) := by
  induction moves using List.reverseRecOn with
  | nil => rfl
  | append_singleton front m ih =>
    rw [Queue.traits, Prod.mk.injEq, Prod.mk.injEq] at ih
    obtain ⟨hsession, hlimit, hclosed⟩ := ih
    rw [run_concat, History.traits_after, hsession, hlimit, hclosed]
    simp [eq_comm]

/-- What has been returned stays so. -/
theorem result?_append (front back : List Move) (h : (run session limit patience front).result? i = some r) :
    (run session limit patience (front ++ back)).result? i = some r := by
  induction back using List.reverseRecOn with
  | nil => rwa [List.append_nil]
  | append_singleton back m ih =>
    rw [← List.append_assoc, run_concat]
    cases History.changes_after (run session limit patience (front ++ back)) m with
    | accepts _ _ _ _ _ _ hresult | keeps _ _ _ hresult => rw [hresult, ih]
    | hands _ hnew _ _ _ hresult | abandons _ hnew _ _ _ hresult =>
      rw [hresult]
      split
      next hj =>
        rw [hj, hnew] at ih
        cases ih
      next => exact ih

/-- Once the queue is closed nothing more is accepted, and results are only added. -/
theorem closed_append (front back : List Move) (hclose : .close ∈ front) :
    (run session limit patience (front ++ back)).accepted = (run session limit patience front).accepted ∧
      ∃ more, (run session limit patience (front ++ back)).results =
        (run session limit patience front).results ++ more := by
  induction back using List.reverseRecOn with
  | nil =>
    rw [List.append_nil]
    exact ⟨rfl, [], (List.append_nil _).symm⟩
  | append_singleton back m ih =>
    obtain ⟨haccepted, more, hmore⟩ := ih
    have hclosed : (run session limit patience (front ++ back)).queue.closed = true := by
      have htraits := traits_run session limit patience (front ++ back)
      rw [decide_eq_true (List.mem_append_left back hclose)] at htraits
      exact congrArg (fun e => e.2.2) htraits
    rw [← List.append_assoc, run_concat]
    cases History.changes_after (run session limit patience (front ++ back)) m with
    | accepts _ hopen =>
      cases hclosed.symm.trans hopen
    | hands _ _ _ hsame hresults | abandons _ _ _ hsame hresults =>
      exact ⟨hsame.trans haccepted, _, by rw [hresults, hmore, List.append_assoc]⟩
    | keeps _ hsame hresults => exact ⟨hsame.trans haccepted, more, hresults.trans hmore⟩

/-- A step of a take that returns nothing in the end leaves the queue as it is. -/
theorem pending_of_abandoned {front back : List Move} {m : Move}
    (hnone : (run session limit patience (front ++ m :: back)).result? i = some none)
    (hm : m.taker? = some i) :
    ((run session limit patience front).after m).queue.pending =
      (run session limit patience front).queue.pending := by
  cases History.changes_after (run session limit patience front) m with
  | accepts hwrite =>
    rw [hwrite] at hm
    cases hm
  | @hands j hj _ _ _ _ hresult =>
    -- what the take returned then it has returned in the end
    obtain rfl : j = i := Option.some.inj (hj.symm.trans hm)
    have hkept := hresult j
    rw [if_pos rfl, ← run_concat] at hkept
    have hend := result?_append session limit patience (front ++ [m]) back hkept
    rw [List.append_assoc, List.singleton_append, hnone] at hend
    cases hend
  | abandons _ _ hpending | keeps hpending => exact hpending

/-- What is queued when the queue is closed is what is returned from then on, followed by what is left. -/
theorem pending_at_close (front back : List Move) :
    let g := run session limit patience front
    let h := run session limit patience (front ++ .close :: back)
    g.queue.pending =
      (h.results.drop g.results.length).flatMap (fun e => e.2.getD []) ++ h.queue.pending := by
  intro g h
  have hconserved := (sound_run session limit patience (front ++ .close :: back)).conserved
  have hbefore := (sound_run session limit patience front).conserved
  obtain ⟨haccepted, more, hmore⟩ :=
    closed_append session limit patience (front ++ [.close]) back (by simp)
  rw [run_concat, List.append_assoc] at haccepted hmore
  change h.results = g.results ++ more at hmore
  change h.accepted = g.accepted at haccepted
  change h.handed ++ h.queue.pending = h.accepted at hconserved
  rw [haccepted, ← hbefore, History.handed, hmore, List.flatMap_append, List.append_assoc] at hconserved
  rw [hmore, List.drop_left]
  exact (List.append_cancel_left hconserved).symm

/-- A take by somebody who does not give up returns at once what there is. -/
theorem results_of_take (h : History) (hpending : h.queue.pending ≠ []) (wait : Int) :
    (([.take wait false, .go h.takers.length, .go h.takers.length] : List Move).foldl History.after h).results =
      h.results ++ [(h.takers.length, some h.queue.pending)] := by
  have hnil : h.queue.pending.isEmpty = false := by simpa using hpending
  simp [History.after, History.advance, Phase.goes, Queue.go, Queue.takePending, Queue.touch, Phase.result?,
    hnil]

/-- However takes, writes, closing, giving up and the clock are interleaved, a queue keeps its messages: what
takes have returned, in the order in which they did, followed by what is queued, is what was accepted.

A take returns once (`results`), a write that fails leaves the queue as it is, and so does every step of a
take that returns nothing. A positive limit is never exceeded, and an open queue refuses a message exactly if
the limit is reached, and never if there is none. A closed queue refuses all messages; what was queued before
is what takes return from then on, followed by what is left, and whoever takes next and does not give up gets
it. -/
theorem pending_conserved (moves : List Move) :
    let h := run session limit patience moves
    ((h.results.map Prod.fst).Nodup ∧ ∀ i r, (i, r) ∈ h.results ↔ h.result? i = some r) ∧
    h.results.flatMap (fun e => e.2.getD []) ++ h.queue.pending = h.accepted ∧
    (∀ text f, (h.queue.write text).2 = .error f →
      (h.after (.write text)).queue.pending = h.queue.pending) ∧
    (∀ i, h.result? i = some none → ∀ front m back, moves = front ++ m :: back → m.taker? = some i →
      ((run session limit patience front).after m).queue.pending =
        (run session limit patience front).queue.pending) ∧
    (h.queue.closed = true ↔ .close ∈ moves) ∧
    (0 < limit → (h.queue.pending.length : Int) ≤ limit ∧ (h.queue.closed = false →
      ∀ text, (h.queue.write text).2 ≠ .ok () ↔ (h.queue.pending.length : Int) = limit)) ∧
    (limit ≤ 0 → h.queue.closed = false → ∀ text, (h.queue.write text).2 = .ok ()) ∧
    (.close ∈ moves → ∀ text, (h.queue.write text).2 = .error .transportClosed) ∧
    (∀ front back, moves = front ++ .close :: back →
      (run session limit patience front).queue.pending =
        (h.results.drop (run session limit patience front).results.length).flatMap (fun e => e.2.getD []) ++
          h.queue.pending) ∧
    (h.queue.pending ≠ [] → ∀ wait, let i := h.takers.length
      (([.take wait false, .go i, .go i] : List Move).foldl History.after h).results =
        h.results ++ [(i, some h.queue.pending)]) := by
  intro h
  have hs : h.Sound := sound_run session limit patience moves
  have htraits : h.queue.traits = _ := traits_run session limit patience moves
  rw [Queue.traits, Prod.mk.injEq, Prod.mk.injEq] at htraits
  obtain ⟨-, hlimit, hclosed⟩ := htraits
  have hclosed_iff : h.queue.closed = true ↔ .close ∈ moves := by rw [hclosed, decide_eq_true_eq]
  refine ⟨⟨hs.once, hs.recorded⟩, hs.conserved, ?_, ?_, hclosed_iff, ?_, ?_, ?_, ?_, results_of_take h⟩
  · intro text f hfails
    rw [History.after]
    split
    next hok =>
      rw [hok] at hfails
      cases hfails
    next herror => rw [h.queue.eq_of_write_error text herror]
  · rintro i hnone front m back rfl hm
    exact pending_of_abandoned session limit patience hnone hm
  · intro hpos
    have hle := hs.fits (hlimit ▸ hpos)
    rw [hlimit] at hle
    refine ⟨hle, fun hopen text => ?_⟩
    rw [h.queue.write_ne_ok_iff text hopen, Queue.full_iff, hlimit]
    omega
  · intro hnone hopen text
    by_contra hfails
    have hfull := (h.queue.write_ne_ok_iff text hopen).1 hfails
    rw [Queue.full_iff, hlimit] at hfull
    omega
  · intro hclose text
    rw [h.queue.write_of_closed text (hclosed_iff.2 hclose)]
  · rintro front back rfl
    exact pending_at_close session limit patience front back

end Run

/-- The first take leaves the token of what it returns. The second one is woken by it for nothing and is
given up while two messages are there, which the third one gets after the queue has been closed. -/
def staleToken : List Move :=
  [.write "a", .take 5 false, .go 0, .go 0, .take 10 false, .go 1, .go 1, .wake 1 .token, .go 1, .write "b",
    .write "c", .write "d", .cancel 1, .wake 1 .cancelled, .close, .write "e", .take 0 false, .go 2, .go 2]

theorem pending_conserved_staleToken :
    let h := run "id" 2 0 staleToken
    let g := run "id" 2 0 (staleToken.take 14)
    (h.accepted = ["a", "b", "c"] ∧ h.results = [(0, some ["a"]), (1, none), (2, some ["b", "c"])] ∧
      h.results.flatMap (fun e => e.2.getD []) ++ h.queue.pending = h.accepted) ∧
    (h.result? 1 = some none ∧ (run "id" 2 0 (staleToken.take 8)).queue.pending = [] ∧
      ((run "id" 2 0 (staleToken.take 8)).after (.go 1)).queue.pending = []) ∧
    (.close ∈ staleToken ∧ (h.queue.write "f").2 = .error .transportClosed) ∧
    (g.queue.closed = false ∧ (g.queue.pending.length : Int) = 2 ∧ (g.queue.write "f").2 ≠ .ok ()) ∧
    g.queue.pending = (h.results.drop g.results.length).flatMap (fun e => e.2.getD []) ++ h.queue.pending := by
  have hclose : .close ∈ staleToken := by decide
  have hrun :
      let h := run "id" 2 0 staleToken
      let g := run "id" 2 0 (staleToken.take 14)
      (h.accepted = ["a", "b", "c"] ∧ h.results = [(0, some ["a"]), (1, none), (2, some ["b", "c"])]) ∧
      (h.result? 1 = some none ∧ (run "id" 2 0 (staleToken.take 8)).queue.pending = []) ∧
      g.queue.closed = false ∧ (g.queue.pending.length : Int) = 2 := by
    decide +kernel
  obtain ⟨⟨haccepted, hresults⟩, ⟨hnone, hempty⟩, hopen, hlength⟩ := hrun
  obtain ⟨-, hconserved, -, habandoned, -, -, -, hrefuses, hlater, -⟩ := pending_conserved "id" 2 0 staleToken
  obtain ⟨-, -, -, -, -, hfull, -⟩ := pending_conserved "id" 2 0 (staleToken.take 14)
  have hstep := habandoned 1 hnone (staleToken.take 8) (.go 1) (staleToken.drop 9) rfl rfl
  exact ⟨⟨haccepted, hresults, hconserved⟩, ⟨hnone, hempty, hstep.trans hempty⟩, ⟨hclose, hrefuses hclose "f"⟩,
    ⟨hopen, hlength, ((hfull (by decide)).2 hopen "f").2 hlength⟩,
    hlater (staleToken.take 14) (staleToken.drop 15) rfl⟩

end PollSocket.Poll
