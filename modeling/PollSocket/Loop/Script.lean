import PollSocket.Loop.Basic
import PollSocket.Total

set_option autoImplicit false

/-!
# Running scripted tasks

A task is a finite script: it may post further tasks, close the loop, ask for its length, run the
pending tasks itself and withdraw the run it is part of, and at the end it may throw.

The machine keeps what is left to do on an agenda. A run is one entry of it, so that a run inside a
task is an entry on top of the rest of that task. Throwing empties the agenda: it leaves all runs at
once. Every step lowers `Machine.work`, so `Machine.finish` needs no bound from outside.
-/

namespace PollSocket.Loop

/-- One act of a task labelled by `ι`. -/
inductive Act (ι : Type) where
  | post (label : ι) (acts : List (Act ι)) (throws : Option String)
  | close
  | size
  | run
  | withdraw
  deriving Inhabited

/-- A task. -/
structure Task (ι : Type) where
  label : ι
  acts : List (Act ι)
  throws : Option String

/-- What an observer sees. -/
inductive Event (ι : Type) where
  | began (label : ι)
  | posted (label : ι) (accepted : Bool)
  | size (n : Nat)
  | ranInside (n : Nat)
  | ended (label : ι)

/-- What is left to do. -/
inductive Duty (ι : Type) where
  /-- Go on with a run that has taken `ran` tasks. -/
  | run (ran : Nat) (inside : Bool)
  | act (a : Act ι)
  /-- The end of a task. -/
  | done (label : ι) (throws : Option String)

/-- Outcome of a run. -/
inductive Outcome where
  | ran (n : Nat)
  | threw (message : String)
  deriving DecidableEq, Inhabited

/-- A loop of scripted tasks while it is being driven. -/
structure Machine (ι : Type) where
  loop : Loop (Task ι) := {}
  agenda : List (Duty ι) := []
  /-- The run in progress has been withdrawn. -/
  withdrawn : Bool := false
  outcome : Outcome := .ran 0
  events : List (Event ι) := []

variable {ι : Type}

mutual

/-- Number of steps an act can lead to. -/
def Act.work : Act ι → Nat
  | .post _ acts _ => 4 + workOfActs acts
  | .close => 1
  | .size => 1
  | .run => 2
  | .withdraw => 1

/-- Number of steps a list of acts can lead to. -/
def workOfActs : List (Act ι) → Nat
  | [] => 0
  | a :: more => a.work + workOfActs more

end

/-- Number of steps a queued task can lead to. -/
def Task.work (t : Task ι) : Nat := 2 + workOfActs t.acts

/-- Number of steps a duty can lead to. -/
def Duty.work : Duty ι → Nat
  | .run _ _ => 1
  | .act a => a.work
  | .done _ _ => 1

/-- Number of steps that are left at most. -/
def Machine.work (m : Machine ι) : Nat :=
  total Task.work m.loop.queue + total Duty.work m.agenda

/-- Adds an event. -/
def Machine.note (m : Machine ι) (e : Event ι) : Machine ι := { m with events := m.events ++ [e] }

/-- Does one act. -/
def Machine.perform (m : Machine ι) : Act ι → Machine ι
  | .post label acts throws =>
    let (loop, accepted) := m.loop.post ⟨label, acts, throws⟩
    { m with loop }.note (.posted label accepted)
  | .close => { m with loop := m.loop.close }
  | .size => m.note (.size m.loop.size)
  | .run => { m with agenda := .run 0 true :: m.agenda }
  | .withdraw => { m with withdrawn := true }

/-- Does one duty, which has been taken off the agenda. -/
def Machine.discharge (m : Machine ι) : Duty ι → Machine ι
  | .act a => m.perform a
  | .done label none => m.note (.ended label)
  | .done _ (some message) => { m with agenda := [], outcome := .threw message }
  | .run ran inside =>
    match m.loop.next? with
    | some (t, loop) =>
      let rest : List (Duty ι) := .done t.label t.throws :: .run (ran + 1) inside :: m.agenda
      { m with loop, agenda := t.acts.map Duty.act ++ rest }.note (.began t.label)
    | none => if inside then m.note (.ranInside ran) else { m with outcome := .ran ran }

/-- One step: the first duty of the agenda. -/
def Machine.step (m : Machine ι) : Machine ι :=
  match m.agenda with
  | [] => m
  | d :: rest => { m with agenda := rest }.discharge d

theorem workOfActs_eq_total (acts : List (Act ι)) : workOfActs acts = total Act.work acts := by
  induction acts with
  | nil => simp only [workOfActs, total_nil]
  | cons a more ih => simp only [workOfActs, total_cons, ih]

theorem total_work_acts (acts : List (Act ι)) :
    total Duty.work (acts.map Duty.act) = workOfActs acts := by
  rw [workOfActs_eq_total, total_map]
  rfl

theorem work_perform_lt (m : Machine ι) (a : Act ι) :
    (m.perform a).work < m.work + a.work := by
  cases a with
  | post label acts throws =>
    simp only [Machine.perform, Machine.note, Machine.work, Act.work, Loop.post]
    split
    · dsimp only
      omega
    · simp only [total_append, total_cons, total_nil, Task.work]
      omega
  | close =>
    simp only [Machine.perform, Machine.work, Act.work, Loop.close, total_nil]
    omega
  | size => simp [Machine.perform, Machine.note, Machine.work, Act.work]
  | run =>
    simp only [Machine.perform, Machine.work, Act.work, Duty.work, total_cons]
    omega
  | withdraw => simp [Machine.perform, Machine.work, Act.work]

theorem work_discharge_lt (m : Machine ι) (d : Duty ι) :
    (m.discharge d).work < m.work + d.work := by
  cases d with
  | act a => exact work_perform_lt m a
  | done label throws =>
    cases throws with
    | none => simp [Machine.discharge, Machine.note, Machine.work, Duty.work]
    | some message =>
      simp only [Machine.discharge, Machine.work, Duty.work, total_nil]
      omega
  | run ran inside =>
    simp only [Machine.discharge, Loop.next?]
    split
    next t loop h =>
      split at h
      · simp at h
      · split at h
        · simp at h
        next t' more hq =>
          obtain ⟨rfl, rfl⟩ := by simpa using h
          have hacts := total_work_acts t'.acts
          simp only [Machine.note, Machine.work, Duty.work, Task.work, hq, total_append, total_cons,
            hacts]
          omega
    next =>
      split <;> simp [Machine.note, Machine.work, Duty.work]

/-- A step of a machine that has something to do lowers its work. -/
theorem work_step_lt (m : Machine ι) (h : m.agenda ≠ []) : m.step.work < m.work := by
  unfold Machine.step
  split
  · contradiction
  next d rest hd =>
    have := work_discharge_lt { m with agenda := rest } d
    simp only [Machine.work, hd, total_cons] at this ⊢
    omega

/-- Steps until nothing is left to do. -/
def Machine.finish (m : Machine ι) : Machine ι :=
  if m.agenda.isEmpty then m else m.step.finish
termination_by m.work
decreasing_by
  rename_i h
  exact work_step_lt m (by simpa using h)

/-- Runs the pending tasks. -/
def Machine.runPending (m : Machine ι) : Machine ι :=
  { m with agenda := [.run 0 false] }.finish

/-- Why a loop that is driven for good comes to its end. -/
inductive Stop where
  | cancelled
  | deadline
  | threw (message : String)
  deriving DecidableEq, Inhabited

/-- Drives the loop until the run is withdrawn or its time is over; then the loop is closed. With no
time limit and nobody to withdraw the run it goes on for good, so that there is no stop. -/
def Machine.drive (m : Machine ι) (withdrawn limited : Bool) : Machine ι × Option Stop :=
  let m := { m with withdrawn }.runPending
  match m.outcome with
  | .threw message => ({ m with loop := m.loop.close }, some (.threw message))
  | .ran _ =>
    if m.withdrawn then ({ m with loop := m.loop.close }, some .cancelled)
    else if limited then ({ m with loop := m.loop.close }, some .deadline)
    else (m, none)

end PollSocket.Loop
