import PollSocket.Proofs.Loop.Order

set_option autoImplicit false

/-!
# Driving a loop for good

One driver runs the tasks of a loop until its context is done, while any number of others post to the loop. To
post is two steps: the task is queued, and then a signal is left in the one place that there is for it. A driver
that has run out of tasks is parked until there is a signal or its context is done; in the second case it closes
the loop and returns. `Machine.drive` is such a run in which nobody else does anything (`drive_reached`).

The driver empties the queue without looking at the signal, so that a signal may be left from before. But it
parks only with an empty queue, and a task that is queued from then on has a poster that has yet to signal, or
its signal is there (`Sound.fits_go`).
-/

namespace PollSocket.Loop

variable {ι : Type} {b : Bool} {i : Nat} {stop : Stop}

namespace History

/-- The next duty is to post a task, and the loop is going to accept it. -/
def posting (h : History ι) : Bool :=
  match h.machine.agenda with
  | .act (.post _ _ _) :: _ => !h.machine.loop.closed
  | _ => false

/-- The context of the driver is withdrawn, or is not. -/
def withdraw (h : History ι) (withdrawn : Bool) : History ι := { h with machine := { h.machine with withdrawn } }

variable {h k : History ι}

theorem Kept.withdraw (hk : h.Kept) (b : Bool) : (h.withdraw b).Kept := ⟨hk.order, hk.empty, hk.closed⟩

theorem Nested.withdraw (hn : h.Nested) (b : Bool) : (h.withdraw b).Nested :=
  ⟨hn.ran, hn.ends, hn.distinct, hn.begun, hn.past, hn.started, hn.returned⟩

/-- At most one move of the loop, after something has happened to the context. -/
inductive Follows (h : History ι) : History ι → Prop where
  | stays (b : Bool) : Follows h (h.withdraw b)
  | moves (b : Bool) (l : Move ι) : Follows h ((h.withdraw b).after l)

theorem Follows.kept (hf : h.Follows k) (hk : h.Kept) : k.Kept := by
  cases hf with
  | stays b => exact hk.withdraw b
  | moves b l => exact (changes_after _ l).kept (hk.withdraw b)

theorem Follows.nested (hf : h.Follows k) (hk : h.Kept) (hn : h.Nested) : k.Nested := by
  cases hf with
  | stays b => exact hn.withdraw b
  | moves b l => exact (hn.withdraw b).after (hk.withdraw b) l

/-- A loop that is closed stays so, and starts nothing. -/
theorem Follows.of_closed (hf : h.Follows k) (hclosed : h.machine.loop.closed = true) :
    k.machine.loop.closed = true ∧ k.started = h.started := by
  cases hf with
  | stays => exact ⟨hclosed, rfl⟩
  | moves b l =>
    obtain ⟨hstill, hstarted, -⟩ := (changes_after (h.withdraw b) l).of_closed hclosed
    exact ⟨hstill, hstarted⟩

theorem driven_drive (hn : h.Nested) (hidle : h.machine.agenda = []) : Driven h.begun (h.after .drive) := by
  have hruns : h.runs = [] := by simpa [hidle] using hn.ran.symm
  rw [after, if_pos (List.isEmpty_iff.2 hidle)]
  refine ⟨⟨[], 0, rfl, by simp⟩, ?_⟩
  rw [begins, hruns]
  rfl

/-- A task that posts another one has not come to its end. -/
theorem agenda_of_posting (hd : Driven i h) (hp : h.posting = true) : h.step.machine.agenda ≠ [] := by
  obtain ⟨front, ran, hagenda, -⟩ := hd.bottom
  rw [posting, hagenda] at hp
  rw [machine_step, Machine.step, hagenda]
  cases front with
  | nil => cases hp
  | cons d front =>
    cases d with
    | act a =>
      cases a with
      | post => exact List.append_ne_nil_of_right_ne_nil _ (List.cons_ne_nil _ _)
      | _ => cases hp
    | _ => cases hp

end History

/-- Where the driver is. -/
inductive Driven.Stage where
  /-- It has not begun. -/
  | away
  /-- It runs the pending tasks. -/
  | running
  /-- It has run out of tasks and waits. -/
  | parked
  /-- It is about to close the loop and to return. -/
  | leaving (stop : Stop)
  | returned (stop : Stop)
  deriving DecidableEq

/-- A loop with its driver and with those who post. -/
structure Driven (ι : Type) where
  history : History ι := {}
  /-- A signal is there. -/
  token : Bool := false
  /-- Number of posters, tasks apart, that have queued a task and have yet to signal. -/
  signals : Nat := 0
  /-- The task that is running has queued a task and has yet to signal. -/
  owes : Bool := false
  /-- The time of the context is over. -/
  expired : Bool := false
  stage : Driven.Stage := .away

namespace Driven

/-- What can happen next. -/
inductive Move (ι : Type) where
  /-- The driver begins, with a context that may be withdrawn already. -/
  | run (withdrawn : Bool)
  /-- Somebody else runs the pending tasks. -/
  | drive
  /-- The next duty of a task is done. -/
  | step
  /-- The task that is running signals. -/
  | pay
  /-- A poster queues a task. -/
  | post (t : Task ι)
  /-- A poster signals. -/
  | signal
  | withdraw
  | expire
  /-- The parked driver goes on for a signal. -/
  | wake
  /-- The parked driver goes on because its context is done. -/
  | leave (stop : Stop)
  /-- The driver closes the loop and returns. -/
  | finish (stop : Stop)
  /-- Somebody else closes the loop. -/
  | close

/-- Why the context is done, once it is. -/
def done? (v : Driven ι) : Option Stop :=
  if v.expired then some .deadline
  else if v.history.machine.withdrawn then some .cancelled
  else none

/-- There is no driver. -/
def Stage.isFree : Stage → Bool
  | .away => true
  | .returned _ => true
  | _ => false

/-- Where the driver is after a duty. -/
def rests (m : Machine ι) : Stage :=
  if m.agenda.isEmpty then
    match m.outcome with
    | .ran _ => .parked
    | .threw message => .leaving (.threw message)
  else .running

/-- The move can be made now. -/
def allows (v : Driven ι) : Move ι → Bool
  | .run _ => v.stage = .away && v.history.machine.agenda.isEmpty
  | .drive => v.stage.isFree
  | .step => !v.owes
  | .pay => v.owes
  | .signal => 0 < v.signals
  | .expire => v.done?.isNone
  | .wake => v.stage = .parked && v.token
  | .leave stop => v.stage = .parked && v.done? = some stop
  | .finish stop => v.stage = .leaving stop
  | _ => true

/-- What a move does. -/
def go (v : Driven ι) : Move ι → Driven ι
  | .run withdrawn => { v with history := (v.history.withdraw withdrawn).after .drive, stage := .running }
  | .drive => { v with history := v.history.after .drive }
  | .step =>
    { v with
      history := v.history.step
      owes := v.history.posting
      stage := if v.stage = .running then rests v.history.step.machine else v.stage }
  | .pay => { v with owes := false, token := true }
  | .post t =>
    { v with
      history := v.history.after (.post t)
      signals := v.signals + if (v.history.machine.loop.post t).2 then 1 else 0 }
  | .signal => { v with signals := v.signals - 1, token := true }
  | .withdraw => { v with history := v.history.withdraw true }
  | .expire => { v with expired := true }
  | .wake => { v with history := v.history.after .drive, token := false, stage := .running }
  | .leave stop => { v with stage := .leaving stop }
  | .finish stop => { v with history := v.history.after .close, stage := .returned stop }
  | .close => { v with history := v.history.after .close }

/-- The state after a move, which is left out if it cannot be made. -/
def after (v : Driven ι) (m : Move ι) : Driven ι := if v.allows m then v.go m else v

/-- The state of a run that starts with an empty loop. -/
def run (moves : List (Move ι)) : Driven ι := moves.foldl after {}

theorem run_append (front back : List (Move ι)) : run (front ++ back) = back.foldl after (run front) :=
  List.foldl_append

variable {v u : Driven ι}

/-! ## What holds at each stage -/

theorem follows_go (v : Driven ι) (m : Move ι) : v.history.Follows (v.go m).history := by
  cases m with
  | run withdrawn => exact .moves withdrawn .drive
  | drive | wake => exact .moves _ .drive
  | step => exact .moves _ .step
  | post t => exact .moves _ (.post t)
  | finish | close => exact .moves _ .close
  | withdraw => exact .stays true
  | pay | signal | expire | leave => exact .stays _

theorem follows_after (v : Driven ι) (m : Move ι) : v.history.Follows (v.after m).history := by
  rw [after]
  split
  · exact v.follows_go m
  · exact .stays _

theorem closed_append (moves : List (Move ι)) (hclosed : (run moves).history.machine.loop.closed = true)
    (later : List (Move ι)) :
    (run (moves ++ later)).history.machine.loop.closed = true ∧
      (run (moves ++ later)).history.started = (run moves).history.started := by
  induction later using List.reverseRecOn with
  | nil =>
    rw [List.append_nil]
    exact ⟨hclosed, rfl⟩
  | append_singleton later m ih =>
    rw [← List.append_assoc, run_append]
    obtain ⟨hstill, hstarted⟩ := ((run (moves ++ later)).follows_after m).of_closed ih.1
    exact ⟨hstill, hstarted.trans ih.2⟩

/-- A queued task has left its signal, or its poster has yet to signal. -/
def Heard (v : Driven ι) : Prop := v.history.machine.loop.queue ≠ [] → v.token = true ∨ 0 < v.signals

/-- What a stage of the driver says about the rest. -/
def Fits (v : Driven ι) : Stage → Prop
  | .running => ∃ i, History.Driven i v.history
  | .parked => v.history.machine.agenda = [] ∧ v.owes = false ∧ v.Heard
  | .returned _ => v.history.machine.loop.closed = true
  | _ => True

/-- The books on the loop are right, and the stage of the driver fits. -/
structure Sound (v : Driven ι) : Prop where
  kept : v.history.Kept
  nested : v.history.Nested
  fits : v.Fits v.stage

/-- The stage of the driver still fits when the driver itself has done nothing. -/
theorem Fits.mono {s : Stage} (hf : v.Fits s)
    (hagenda : u.history.machine.agenda = v.history.machine.agenda) (hruns : u.history.runs = v.history.runs)
    (hclosed : v.history.machine.loop.closed = true → u.history.machine.loop.closed = true)
    (howes : v.owes = false → u.owes = false) (hheard : v.Heard → u.Heard) : u.Fits s := by
  cases s with
  | away | leaving => trivial
  | running =>
    obtain ⟨i, hd⟩ := hf
    exact ⟨i, hagenda ▸ hd.bottom, hruns ▸ hd.outermost⟩
  | parked => exact ⟨hagenda.trans hf.1, howes hf.2.1, hheard hf.2.2⟩
  | returned => exact hclosed hf

/-- The driver goes on with its run, or it has run out of tasks, or a task has thrown. -/
theorem Sound.fits_rests (hs : v.Sound) (hd : History.Driven i v.history) :
    (v.go .step).Fits (rests v.history.step.machine) := by
  rcases hd.step hs.nested hs.kept with hdriven | hover
  · obtain ⟨front, ran, hagenda, -⟩ := hdriven.bottom
    rw [rests, if_neg (by simp [hagenda])]
    exact ⟨i, hdriven⟩
  · rw [rests, if_pos (by simp [hover.agenda])]
    rcases hover.outcome with ⟨-, -, -, houtcome, hqueue⟩ | ⟨message, houtcome, -⟩
    · rw [houtcome]
      refine ⟨hover.agenda, ?_, fun hne => absurd hqueue hne⟩
      exact Bool.eq_false_iff.2 fun hp => History.agenda_of_posting hd hp hover.agenda
    · rw [houtcome]
      trivial

theorem Sound.fits_go (hs : v.Sound) (m : Move ι) (hm : v.allows m = true) : (v.go m).Fits (v.go m).stage := by
  have hfits := hs.fits
  have hclosed : v.history.machine.loop.closed = true → (v.go m).history.machine.loop.closed = true :=
    fun hclosed => ((v.follows_go m).of_closed hclosed).1
  cases m with
  | run withdrawn =>
    have hidle : v.history.machine.agenda = [] := by simpa using (Bool.and_eq_true_iff.1 hm).2
    exact ⟨_, History.driven_drive (hs.nested.withdraw withdrawn) hidle⟩
  | drive =>
    rw [go]
    cases hstage : v.stage with
    | away | leaving => trivial
    | returned =>
      rw [hstage] at hfits
      exact hclosed hfits
    | running | parked =>
      rw [allows, hstage] at hm
      cases hm
  | step =>
    rw [go]
    cases hstage : v.stage with
    | away | leaving => trivial
    | running =>
      rw [hstage] at hfits
      obtain ⟨i, hd⟩ := hfits
      exact hs.fits_rests hd
    | parked =>
      -- a parked driver has no duty
      rw [hstage] at hfits
      obtain ⟨hidle, -, hheard⟩ := hfits
      have hsame := History.step_of_idle hidle
      refine ⟨by rw [hsame, hidle], by rw [History.posting, hidle], ?_⟩
      rwa [hsame]
    | returned =>
      rw [hstage] at hfits
      exact hclosed hfits
  | post t =>
    refine hfits.mono rfl rfl hclosed id fun hheard hne => ?_
    cases hshut : v.history.machine.loop.closed with
    | true =>
      rw [go, History.after, post_of_closed hshut] at hne
      exact (hheard hne).imp_right fun hpos => Nat.lt_add_right _ hpos
    | false =>
      right
      simp [go, post_of_open hshut]
  | close => exact hfits.mono rfl rfl hclosed id fun _ hne => absurd rfl hne
  | withdraw | expire => exact hfits.mono rfl rfl id id id
  | pay => exact hfits.mono rfl rfl id (fun _ => rfl) fun _ _ => Or.inl rfl
  | signal => exact hfits.mono rfl rfl id id fun _ _ => Or.inl rfl
  | wake =>
    have hparked : v.stage = .parked := of_decide_eq_true (Bool.and_eq_true_iff.1 hm).1
    rw [hparked] at hfits
    exact ⟨_, History.driven_drive hs.nested hfits.1⟩
  | leave => trivial
  | finish => rfl

theorem sound_run (moves : List (Move ι)) : (run moves).Sound := by
  induction moves using List.reverseRecOn with
  | nil => exact ⟨History.kept_run [], History.nested_run [], trivial⟩
  | append_singleton moves m ih =>
    have hfollows := (run moves).follows_after m
    rw [run_append]
    refine ⟨hfollows.kept ih.kept, hfollows.nested ih.kept ih.nested, ?_⟩
    rw [List.foldl_cons, after]
    split
    next hm => exact ih.fits_go m hm
    next => exact ih.fits

/-! ## Driving as one operation -/

/-- The driver does its duties while nobody else does anything. -/
theorem alone_steps (n : Nat) (howes : v.owes = false) (hstage : v.stage = rests v.history.machine) :
    ∃ moves : List (Move ι), let w := moves.foldl after v
      w.history = History.step^[n] v.history ∧ w.expired = v.expired ∧ w.stage = rests w.history.machine := by
  induction n generalizing v with
  | zero => exact ⟨[], rfl, rfl, hstage⟩
  | succ n ih =>
    have hrests : (if v.stage = .running then rests v.history.step.machine else v.stage) =
        rests v.history.step.machine := by
      split
      next => rfl
      next hnot =>
        -- a driver that is not running has no duty
        have hidle : v.history.machine.agenda = [] := by
          by_contra hne
          exact hnot (hstage.trans (if_neg (by simpa using hne)))
        rw [History.step_of_idle hidle, hstage]
    obtain ⟨token, hstep⟩ : ∃ token, ([.step, .pay] : List (Move ι)).foldl after v =
        { v with history := v.history.step, token, stage := rests v.history.step.machine } := by
      rw [List.foldl_cons, after, if_pos (by simp [allows, howes]), go, hrests, List.foldl_cons, List.foldl_nil, after]
      split
      next => exact ⟨true, by rw [howes]; rfl⟩
      next hnone =>
        have hnone : v.history.posting = false := by simpa [allows] using hnone
        exact ⟨v.token, by rw [howes, hnone]⟩
    obtain ⟨moves, hmoves⟩ := ih (v := ([.step, .pay] : List (Move ι)).foldl after v)
      (by rw [hstep]; exact howes) (by rw [hstep])
    refine ⟨[.step, .pay] ++ moves, ?_⟩
    rw [List.foldl_append]
    rwa [hstep] at hmoves ⊢

/-- `Machine.drive` is a run of the driver while nobody else does anything, except that the time of its context
may have to pass. -/
theorem drive_reached (hs : v.Sound) (hstage : v.stage = .away) (hidle : v.history.machine.agenda = [])
    (howes : v.owes = false) (hexpired : v.expired = false) {limited : Bool} {m : Machine ι}
    (hdrive : v.history.machine.drive b limited = (m, some stop)) :
    ∃ moves : List (Move ι), let u := moves.foldl after v
      u.history.machine = m ∧ u.stage = .returned stop := by
  have hbegin : v.after (.run b) = v.go (.run b) := if_pos (by simp [allows, hstage, hidle])
  have hempty : (v.history.withdraw b).machine.agenda.isEmpty = true := List.isEmpty_iff.2 hidle
  have hagenda : (v.go (.run b)).history.machine =
      { v.history.machine with withdrawn := b, agenda := [.run 0 false] } := by
    rw [go, History.after, if_pos hempty]
    rfl
  have hkept := hs.kept.withdraw b
  have hnested := hs.nested.withdraw b
  obtain ⟨n, hfinish, hover⟩ := (History.driven_drive hnested hidle).over (hnested.after hkept .drive)
    ((History.changes_after _ .drive).kept hkept)
  obtain ⟨moves, hhistory, hlimit, hrests⟩ := alone_steps (v := v.go (.run b)) n howes
    (by rw [hagenda]; rfl)
  generalize hw : moves.foldl after (v.go (.run b)) = w at hhistory hlimit hrests
  have hmachine : w.history.machine = ({ v.history.machine with withdrawn := b } : Machine ι).runPending := by
    rw [hhistory, Machine.runPending, ← hagenda]
    exact hfinish
  suffices hmore : ∃ more : List (Move ι), let u := more.foldl after w
      u.history.machine = m ∧ u.stage = .returned stop by
    obtain ⟨more, hmore⟩ := hmore
    refine ⟨.run b :: moves ++ more, ?_⟩
    rwa [List.foldl_append, List.foldl_cons, hbegin, hw]
  rw [rests, if_pos (by rw [hhistory]; exact List.isEmpty_iff.2 hover.agenda)] at hrests
  rw [Machine.drive, ← hmachine] at hdrive
  -- the run of pending tasks has ended by a throw, or the driver is parked
  split at hdrive
  next message houtcome =>
    cases hdrive
    rw [houtcome] at hrests
    exact ⟨[.finish (.threw message)], by simp [after, allows, go, hrests, History.after, History.closes]⟩
  next houtcome =>
    rw [houtcome] at hrests
    have hlimit : w.expired = false := hlimit.trans hexpired
    split at hdrive
    next hdone =>
      cases hdrive
      refine ⟨[.leave .cancelled, .finish .cancelled], ?_⟩
      simp [after, allows, go, done?, hrests, hlimit, hdone, History.after, History.closes]
    next hnot =>
      split at hdrive
      next =>
        cases hdrive
        refine ⟨[.expire, .leave .deadline, .finish .deadline], ?_⟩
        simp [after, allows, go, done?, hrests, hlimit, hnot, History.after, History.closes]
      next => cases hdrive

/-- Whoever posts and whoever runs, a driver that is parked while a task is queued finds a signal, or there is a
poster that has queued its task and has yet to signal. A driver that has returned has closed the loop, which has
no task then, and whatever happens later none is started. To drive the loop as one operation is to begin such
a run and let it return. -/
theorem no_wake_lost (moves : List (Move ι)) :
    let v := run moves
    (v.stage = .parked → v.history.machine.loop.queue ≠ [] → v.token = true ∨ 0 < v.signals) ∧
    (∀ stop, v.stage = .returned stop → ∀ later, let w := run (moves ++ later)
      w.history.machine.loop.closed = true ∧ w.history.machine.loop.queue = [] ∧
        w.history.started = v.history.started) ∧
    (v.stage = .away → v.owes = false → v.expired = false → v.history.machine.agenda = [] →
      ∀ b limited m stop, v.history.machine.drive b limited = (m, some stop) → ∃ later, let w := run (moves ++ later)
        w.history.machine = m ∧ w.stage = .returned stop) := by
  intro v
  have hs := sound_run moves
  have hfits := hs.fits
  refine ⟨fun hparked => ?_, ?_, fun haway howes hexpired hidle b limited m stop hdrive => ?_⟩
  · rw [show (run moves).stage = .parked from hparked] at hfits
    exact hfits.2.2
  · intro stop hreturned later
    rw [show (run moves).stage = .returned stop from hreturned] at hfits
    obtain ⟨hclosed, hstarted⟩ := closed_append moves hfits later
    exact ⟨hclosed, (sound_run (moves ++ later)).kept.empty hclosed, hstarted⟩
  · obtain ⟨later, hlater⟩ := drive_reached hs haway hidle howes hexpired hdrive
    exact ⟨later, by rwa [run_append]⟩

/-- A task posts another one; both are run, and a signal is left for which the driver goes on for nothing. Then a
third task is queued, and its poster has yet to signal. -/
def lateSignal : List (Move Nat) :=
  [.run false, .step, .post ⟨0, [.post 1 [] none], none⟩, .signal, .wake, .step, .step, .pay, .step, .step, .step,
    .step, .wake, .step, .post ⟨2, [], none⟩]

/-- The context is withdrawn then. -/
def goneSince : List (Move Nat) :=
  lateSignal ++ ([.withdraw, .leave .cancelled, .finish .cancelled] : List (Move Nat))

theorem no_wake_lost_lateSignal :
    ((run lateSignal).stage = .parked ∧ (run lateSignal).history.machine.loop.queue ≠ [] ∧
      ((run lateSignal).token = true ∨ 0 < (run lateSignal).signals)) ∧
    (run goneSince).stage = .returned .cancelled ∧
      (run goneSince).history.started.map (fun e => e.2.label) = [0, 1] ∧
      ∀ later, (run (goneSince ++ later)).history.started = (run goneSince).history.started := by
  have hparked : (run lateSignal).stage = .parked := by decide +kernel
  have hqueue : (run lateSignal).history.machine.loop.queue ≠ [] := by
    have hone : (run lateSignal).history.machine.loop.queue = [⟨2, [], none⟩] := by rfl
    simp [hone]
  have hgone : (run goneSince).stage = .returned .cancelled ∧
      (run goneSince).history.started.map (fun e => e.2.label) = [0, 1] := by decide +kernel
  exact ⟨⟨hparked, hqueue, (no_wake_lost lateSignal).1 hparked hqueue⟩, hgone.1, hgone.2,
    fun later => ((no_wake_lost goneSince).2.1 _ hgone.1 later).2.2⟩

end Driven

end PollSocket.Loop
