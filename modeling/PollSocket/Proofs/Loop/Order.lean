import Mathlib
import PollSocket.Loop.Script

set_option autoImplicit false

/-!
# Tasks of a loop are started once and in order

A program posts tasks to a loop, runs the pending ones and closes the loop, and so do the tasks themselves.
`History` keeps beside the machine the tasks that were accepted, the tasks that were started with the run that
took them, the runs and tasks in progress, and what runs have returned. Runs are named by the order in which
they begin, so that a run inside a task is told from the run that took this task.

A move posts, takes or closes, or it leaves the loop alone (`Changes`). So the started tasks followed by the
queue are the accepted tasks until the loop is closed, and nothing is started after that. The entries of the
agenda that stand for runs and for ends of tasks are the runs and tasks in progress (`Nested`), so that a run
returns the number of tasks that it took itself. Every step lowers `Machine.work`, hence a run comes to its end.
-/

namespace PollSocket.Loop

variable {inside : Bool} {i ran : Nat}

variable {ι : Type}

/-! ## Histories -/

/-- What can happen next. -/
inductive Move (ι : Type) where
  /-- The first duty of the agenda is done. -/
  | step
  /-- The program runs the pending tasks, unless a run is in progress. -/
  | drive
  /-- A task is posted by somebody else than the tasks. -/
  | post (t : Task ι)
  | close

/-- A run that has returned: its name, what it has reported, and what was queued then. -/
structure Return (ι : Type) where
  run : Nat
  result : Option Nat
  left : List (Task ι)

/-- A loop with what led to it. -/
structure History (ι : Type) where
  machine : Machine ι := {}
  accepted : List (Task ι) := []
  /-- Tasks that were started, by the runs that took them. -/
  started : List (Nat × Task ι) := []
  /-- Tasks that were started and have not come to their end, innermost first. -/
  underway : List (Task ι) := []
  /-- Number of runs that have begun. -/
  begun : Nat := 0
  /-- Runs in progress, innermost first. -/
  runs : List Nat := []
  returned : List (Return ι) := []
  /-- Number of times the loop was closed. -/
  closings : Nat := 0

/-- What a run that has just come to its end has reported: to the task it is inside of, or to the program. -/
def Machine.report? (m : Machine ι) (inside : Bool) : Option Nat :=
  if inside then
    match m.events.getLast? with
    | some (.ranInside n) => some n
    | _ => none
  else
    match m.outcome with
    | .ran n => some n
    | .threw _ => none

namespace History

/-- The innermost run. -/
def current (h : History ι) : Nat := h.runs.headD 0

/-- Number of tasks that a run has taken. -/
def took (h : History ι) (run : Nat) : Nat := h.started.countP fun e => e.1 == run

/-- A task is posted, which leads to `m`. -/
def posts (h : History ι) (m : Machine ι) (t : Task ι) : History ι :=
  { h with machine := m, accepted := h.accepted ++ if (h.machine.loop.post t).2 then [t] else [] }

/-- The loop is closed, which leads to `m`. -/
def closes (h : History ι) (m : Machine ι) : History ι :=
  { h with machine := m, closings := h.closings + 1 }

/-- A run begins. -/
def begins (h : History ι) (m : Machine ι) : History ι :=
  { h with machine := m, begun := h.begun + 1, runs := h.begun :: h.runs }

/-- The innermost run takes a task. -/
def takes (h : History ι) (m : Machine ι) (t : Task ι) : History ι :=
  { h with machine := m, started := h.started ++ [(h.current, t)], underway := t :: h.underway }

/-- The innermost run returns. -/
def returns (h : History ι) (m : Machine ι) (inside : Bool) : History ι :=
  { h with
    machine := m
    runs := h.runs.tail
    returned := h.returned ++ [⟨h.current, m.report? inside, m.loop.queue⟩] }

/-- One step. -/
def step (h : History ι) : History ι :=
  let m := h.machine.step
  match h.machine.agenda with
  | [] => h
  | .act (.post label acts throws) :: _ => h.posts m ⟨label, acts, throws⟩
  | .act .close :: _ => h.closes m
  | .act .run :: _ => h.begins m
  | .act _ :: _ => { h with machine := m }
  | .done _ none :: _ => { h with machine := m, underway := h.underway.tail }
  | .done _ (some _) :: _ => { h with machine := m, runs := [], underway := [] }
  | .run _ inside :: _ =>
    match h.machine.loop.next? with
    | some (t, _) => h.takes m t
    | none => h.returns m inside

/-- The history after a move. -/
def after (h : History ι) : Move ι → History ι
  | .step => h.step
  | .drive =>
    if h.machine.agenda.isEmpty then h.begins { h.machine with agenda := [.run 0 false] } else h
  | .post t => h.posts { h.machine with loop := (h.machine.loop.post t).1 } t
  | .close => h.closes { h.machine with loop := h.machine.loop.close }

/-- The history of a run that starts with an empty loop. -/
def run (moves : List (Move ι)) : History ι := moves.foldl after {}

theorem run_append (front back : List (Move ι)) : run (front ++ back) = back.foldl after (run front) :=
  List.foldl_append

theorem run_concat (moves : List (Move ι)) (m : Move ι) : run (moves ++ [m]) = (run moves).after m :=
  List.foldl_append

end History

/-! ## Queues -/

theorem post_of_open {l : Loop (Task ι)} (h : l.closed = false) (t : Task ι) :
    l.post t = ({ l with queue := l.queue ++ [t] }, true) := by
  rw [post, if_neg (by simp [h])]

theorem post_of_closed {l : Loop (Task ι)} (h : l.closed = true) (t : Task ι) : l.post t = (l, false) := by
  rw [post, if_pos h]

theorem next?_of_closed {l : Loop (Task ι)} (h : l.closed = true) : l.next? = none := by
  rw [next?, if_pos h]

/-- A task is taken from the front of an open queue. -/
theorem next?_eq_some {l l' : Loop (Task ι)} {t : Task ι} (h : l.next? = some (t, l')) :
    l.closed = false ∧ l.queue = t :: l'.queue ∧ l'.closed = false := by
  unfold next? at h
  split at h
  · cases h
  next hopen =>
    have hopen : l.closed = false := Bool.eq_false_iff.2 hopen
    split at h
    · cases h
    next t' more hqueue =>
      cases h
      exact ⟨hopen, hqueue, hopen⟩

/-- There is nothing to take from a loop that is closed or has no tasks. -/
theorem next?_eq_none {l : Loop (Task ι)} (h : l.next? = none) : l.closed = true ∨ l.queue = [] := by
  unfold next? at h
  split at h
  next hclosed => exact Or.inl hclosed
  next =>
    split at h
    next hqueue => exact Or.inr hqueue
    next => cases h

namespace History

/-! ## What a step does -/

/-- What a step does that starts with duty `d` of the agenda, with `rest` behind it. -/
inductive Does (h : History ι) (rest : List (Duty ι)) : Duty ι → History ι → Prop where
  | posts (t : Task ι) {m : Machine ι} (hloop : m.loop = (h.machine.loop.post t).1)
    (hagenda : m.agenda = rest) : Does h rest (.act (.post t.label t.acts t.throws)) (h.posts m t)
  | closes {m : Machine ι} (hloop : m.loop = h.machine.loop.close) (hagenda : m.agenda = rest) :
    Does h rest (.act .close) (h.closes m)
  | begins {m : Machine ι} (hloop : m.loop = h.machine.loop) (hagenda : m.agenda = .run 0 true :: rest) :
    Does h rest (.act .run) (h.begins m)
  /-- Any other act. -/
  | passes {a : Act ι} {m : Machine ι} (hloop : m.loop = h.machine.loop) (hagenda : m.agenda = rest) :
    Does h rest (.act a) { h with machine := m }
  | ends {label : ι} {m : Machine ι} (hloop : m.loop = h.machine.loop) (hagenda : m.agenda = rest) :
    Does h rest (.done label none) { h with machine := m, underway := h.underway.tail }
  | throws {label : ι} {message : String} {m : Machine ι} (hloop : m.loop = h.machine.loop)
    (hagenda : m.agenda = []) (houtcome : m.outcome = .threw message) :
    Does h rest (.done label (some message)) { h with machine := m, runs := [], underway := [] }
  | takes {ran : Nat} {inside : Bool} {t : Task ι} {m : Machine ι}
    (hnext : h.machine.loop.next? = some (t, m.loop))
    (hagenda : m.agenda =
      t.acts.map Duty.act ++ .done t.label t.throws :: .run (ran + 1) inside :: rest) :
    Does h rest (.run ran inside) (h.takes m t)
  | returns {ran : Nat} {inside : Bool} {m : Machine ι} (hnext : h.machine.loop.next? = none)
    (hloop : m.loop = h.machine.loop) (hagenda : m.agenda = rest) (hreport : m.report? inside = some ran) :
    Does h rest (.run ran inside) (h.returns m inside)

theorem does_step {h : History ι} {d : Duty ι} {rest : List (Duty ι)} (hagenda : h.machine.agenda = d :: rest) :
    Does h rest d h.step := by
  have hmachine : h.machine.step = { h.machine with agenda := rest }.discharge d := by
    rw [Machine.step, hagenda]
  rw [step, hagenda, hmachine]
  cases d with
  | act a =>
    cases a with
    | post label acts throws => exact .posts ⟨label, acts, throws⟩ rfl rfl
    | close => exact .closes rfl rfl
    | run => exact .begins rfl rfl
    | size | withdraw => exact .passes rfl rfl
  | done label throws =>
    cases throws with
    | none => exact .ends rfl rfl
    | some message => exact .throws rfl rfl rfl
  | run ran inside =>
    cases hnext : h.machine.loop.next? with
    | some p =>
      simp only [Machine.discharge, hnext]
      exact .takes hnext rfl
    | none =>
      simp only [Machine.discharge, hnext]
      cases inside with
      | true => exact .returns hnext rfl rfl (by simp [Machine.report?, Machine.note])
      | false => exact .returns hnext rfl rfl rfl

theorem step_of_idle {h : History ι} (hagenda : h.machine.agenda = []) : h.step = h := by
  rw [step, hagenda]

/-! ## What a move does to the loop -/

/-- What a move does to the loop and to the books on it. -/
inductive Changes (h k : History ι) : Prop where
  | leaves (hloop : k.machine.loop = h.machine.loop) (haccepted : k.accepted = h.accepted)
    (hstarted : k.started = h.started) (hclosings : k.closings = h.closings)
  | posts (t : Task ι) (hloop : k.machine.loop = (h.machine.loop.post t).1)
    (haccepted : k.accepted = h.accepted ++ if (h.machine.loop.post t).2 then [t] else [])
    (hstarted : k.started = h.started) (hclosings : k.closings = h.closings)
  | takes (t : Task ι) (hnext : h.machine.loop.next? = some (t, k.machine.loop))
    (haccepted : k.accepted = h.accepted) (hstarted : k.started = h.started ++ [(h.current, t)])
    (hclosings : k.closings = h.closings)
  | closes (hloop : k.machine.loop = h.machine.loop.close) (haccepted : k.accepted = h.accepted)
    (hstarted : k.started = h.started) (hclosings : k.closings = h.closings + 1)

theorem Does.changes {h k : History ι} {d : Duty ι} {rest : List (Duty ι)} (hd : Does h rest d k) :
    Changes h k := by
  cases hd with
  | posts t hloop => exact .posts t hloop rfl rfl rfl
  | closes hloop => exact .closes hloop rfl rfl rfl
  | begins hloop | passes hloop | ends hloop | throws hloop | returns _ hloop => exact .leaves hloop rfl rfl rfl
  | takes hnext => exact .takes _ hnext rfl rfl rfl

theorem changes_step (h : History ι) : Changes h h.step := by
  cases hagenda : h.machine.agenda with
  | nil =>
    rw [step_of_idle hagenda]
    exact .leaves rfl rfl rfl rfl
  | cons d rest => exact (does_step hagenda).changes

theorem changes_after (h : History ι) (m : Move ι) : Changes h (h.after m) := by
  cases m with
  | step => exact changes_step h
  | drive =>
    rw [after]
    split
    · exact .leaves rfl rfl rfl rfl
    · exact .leaves rfl rfl rfl rfl
  | post t => exact .posts t rfl rfl rfl rfl
  | close => exact .closes rfl rfl rfl rfl

/-- What the books say about the loop. -/
structure Kept (h : History ι) : Prop where
  /-- Until the loop is closed, a task that was accepted is started or queued, in the order of posting. -/
  order : h.machine.loop.closed = false → h.started.map Prod.snd ++ h.machine.loop.queue = h.accepted
  empty : h.machine.loop.closed = true → h.machine.loop.queue = []
  closed : h.machine.loop.closed = true ↔ 0 < h.closings

theorem Changes.kept {h k : History ι} (hk : Changes h k) (hh : h.Kept) : k.Kept := by
  cases hk with
  | leaves hloop haccepted hstarted hclosings =>
    constructor
    · rw [hloop, haccepted, hstarted]
      exact hh.order
    · rw [hloop]
      exact hh.empty
    · rw [hloop, hclosings]
      exact hh.closed
  | posts t hloop haccepted hstarted hclosings =>
    cases hclosed : h.machine.loop.closed with
    | true =>
      rw [post_of_closed hclosed] at hloop haccepted
      constructor
      · intro hopen
        rw [hloop, hclosed] at hopen
        cases hopen
      · intro _
        rw [hloop]
        exact hh.empty hclosed
      · rw [hloop, hclosings]
        exact hh.closed
    | false =>
      rw [post_of_open hclosed] at hloop haccepted
      constructor
      · intro _
        rw [hloop, haccepted, hstarted, ← hh.order hclosed, List.append_assoc]
        rfl
      · intro hnow
        rw [hloop] at hnow
        rw [show h.machine.loop.closed = true from hnow] at hclosed
        cases hclosed
      · rw [hloop, hclosings]
        exact hh.closed
  | takes t hnext haccepted hstarted hclosings =>
    obtain ⟨hopen, hqueue, hstill⟩ := next?_eq_some hnext
    constructor
    · intro _
      have horder := hh.order hopen
      rw [hqueue] at horder
      rw [haccepted, hstarted, ← horder, List.map_append, List.append_assoc]
      rfl
    · intro hnow
      cases hstill.symm.trans hnow
    · rw [hclosings, ← hh.closed, hopen, hstill]
  | closes hloop haccepted hstarted hclosings =>
    constructor
    · intro hopen
      rw [hloop] at hopen
      cases hopen
    · intro _
      rw [hloop]
      rfl
    · rw [hloop, hclosings]
      exact ⟨fun _ => Nat.succ_pos _, fun _ => rfl⟩

theorem kept_run (moves : List (Move ι)) : (run moves).Kept := by
  induction moves using List.reverseRecOn with
  | nil => exact ⟨fun _ => rfl, fun _ => rfl, by simp [run]⟩
  | append_singleton moves m ih =>
    rw [run_concat]
    exact (changes_after _ m).kept ih

/-- A loop from which there is nothing to take has no tasks. -/
theorem Kept.queue_of_next? {h : History ι} (hh : h.Kept) (hnext : h.machine.loop.next? = none) :
    h.machine.loop.queue = [] := by
  rcases next?_eq_none hnext with hclosed | hqueue
  · exact hh.empty hclosed
  · exact hqueue

/-- A loop that is closed stays so, accepts nothing and starts nothing. -/
theorem Changes.of_closed {h k : History ι} (hk : Changes h k) (hclosed : h.machine.loop.closed = true) :
    k.machine.loop.closed = true ∧ k.started = h.started ∧ k.accepted = h.accepted := by
  cases hk with
  | leaves hloop haccepted hstarted => exact ⟨by rw [hloop, hclosed], hstarted, haccepted⟩
  | posts t hloop haccepted hstarted =>
    rw [post_of_closed hclosed] at hloop haccepted
    exact ⟨by rw [hloop, hclosed], hstarted, haccepted.trans (List.append_nil _)⟩
  | takes t hnext =>
    rw [next?_of_closed hclosed] at hnext
    cases hnext
  | closes hloop haccepted hstarted => exact ⟨by rw [hloop]; rfl, hstarted, haccepted⟩

/-! ## Runs and tasks in progress -/

end History

/-- Number of tasks that a run on the agenda has taken. -/
def Duty.ran? : Duty ι → Option Nat
  | .run ran _ => some ran
  | _ => none

/-- Label and end of the task whose end a duty is. -/
def Duty.end? : Duty ι → Option (ι × Option String)
  | .done label throws => some (label, throws)
  | _ => none

theorem filterMap_ran?_acts (acts : List (Act ι)) : (acts.map Duty.act).filterMap Duty.ran? = [] := by
  simp [Duty.ran?]

theorem filterMap_end?_acts (acts : List (Act ι)) : (acts.map Duty.act).filterMap Duty.end? = [] := by
  simp [Duty.end?]

namespace History

/-- The agenda holds the runs and the tasks in progress, and what runs have returned is right. -/
structure Nested (h : History ι) : Prop where
  ran : h.machine.agenda.filterMap Duty.ran? = h.runs.map h.took
  ends : h.machine.agenda.filterMap Duty.end? = h.underway.map fun t => (t.label, t.throws)
  distinct : h.runs.Nodup
  begun : ∀ i ∈ h.runs, i < h.begun
  past : ∀ e ∈ h.started, e.1 < h.begun
  started : ∀ t ∈ h.underway, t ∈ h.started.map Prod.snd
  returned : ∀ r ∈ h.returned,
    r.run ∉ h.runs ∧ r.run < h.begun ∧ r.result = some (h.took r.run) ∧ r.left = []

/-- A run that is yet to begin has taken nothing. -/
theorem Nested.took_begun {h : History ι} (hh : h.Nested) : h.took h.begun = 0 := by
  rw [took, List.countP_eq_zero]
  intro e he
  have hlt := hh.past e he
  simp only [beq_iff_eq]
  omega

/-- The books on runs and tasks in progress. -/
def progress (h : History ι) : List (Nat × Task ι) × List (Task ι) × Nat × List Nat × List (Return ι) :=
  (h.started, h.underway, h.begun, h.runs, h.returned)

/-- A duty that is neither a run nor the end of a task does not matter. -/
theorem Nested.replan {h k : History ι} (hh : h.Nested)
    (hran : k.machine.agenda.filterMap Duty.ran? = h.machine.agenda.filterMap Duty.ran?)
    (hends : k.machine.agenda.filterMap Duty.end? = h.machine.agenda.filterMap Duty.end?)
    (hprogress : k.progress = h.progress) : k.Nested := by
  obtain ⟨_, _, started, underway, begun, runs, returned, _⟩ := k
  cases hprogress
  exact { hh with ran := hran.trans hh.ran, ends := hends.trans hh.ends }

theorem Nested.begins {h : History ι} (hh : h.Nested) {m : Machine ι}
    (hran : m.agenda.filterMap Duty.ran? = 0 :: h.machine.agenda.filterMap Duty.ran?)
    (hends : m.agenda.filterMap Duty.end? = h.machine.agenda.filterMap Duty.end?) :
    (h.begins m).Nested where
  ran := by
    have hnew : (h.begins m).took h.begun = 0 := hh.took_begun
    rw [History.begins, hran, hh.ran]
    exact congrArg (· :: _) hnew.symm
  ends := hends.trans hh.ends
  distinct := List.nodup_cons.2 ⟨fun hmem => Nat.lt_irrefl _ (hh.begun _ hmem), hh.distinct⟩
  begun i hi := by
    rcases List.mem_cons.1 hi with rfl | hi
    · exact Nat.lt_succ_self _
    · exact Nat.lt_succ_of_lt (hh.begun i hi)
  past e he := Nat.lt_succ_of_lt (hh.past e he)
  started := hh.started
  returned r hr := by
    obtain ⟨hrun, hlt, hresult⟩ := hh.returned r hr
    refine ⟨?_, Nat.lt_succ_of_lt hlt, hresult⟩
    rw [History.begins, List.mem_cons, not_or]
    exact ⟨hlt.ne, hrun⟩

/-- A task more counts for the run that has taken it, and for no other. -/
theorem took_takes (h : History ι) (m : Machine ι) (t : Task ι) (i : Nat) :
    (h.takes m t).took i = h.took i + if h.current = i then 1 else 0 := by
  rw [took, takes, List.countP_append, List.countP_singleton]
  simp only [beq_iff_eq]
  rfl

/-- The run that stands first on the agenda is the innermost one, and has taken as many tasks as it says. -/
theorem Nested.innermost {h : History ι} (hh : h.Nested) {rest : List (Duty ι)}
    (hagenda : h.machine.agenda = .run ran inside :: rest) :
    ∃ outer, h.runs = h.current :: outer ∧ h.current ∉ outer ∧ h.took h.current = ran ∧
      rest.filterMap Duty.ran? = outer.map h.took := by
  have hran := hh.ran
  have hdistinct := hh.distinct
  rw [hagenda] at hran
  cases hruns : h.runs with
  | nil => simp [hruns, Duty.ran?] at hran
  | cons i outer =>
    have hcurrent : h.current = i := by rw [current, hruns, List.headD_cons]
    rw [hruns] at hran
    rw [hruns] at hdistinct
    obtain ⟨hfirst, hrest⟩ := List.cons.inj hran
    rw [hcurrent]
    exact ⟨outer, rfl, (List.nodup_cons.1 hdistinct).1, hfirst.symm, hrest⟩

theorem Nested.takes {h : History ι} (hh : h.Nested) {rest : List (Duty ι)}
    (hagenda : h.machine.agenda = .run ran inside :: rest) {t : Task ι} {m : Machine ι}
    (hm : m.agenda = t.acts.map Duty.act ++ .done t.label t.throws :: .run (ran + 1) inside :: rest) :
    (h.takes m t).Nested := by
  obtain ⟨outer, hruns, hnotin, hfirst, hrest⟩ := hh.innermost hagenda
  have hother : ∀ j, h.current ≠ j → (h.takes m t).took j = h.took j := by
    intro j hne
    rw [took_takes, if_neg hne, Nat.add_zero]
  refine { hh with ran := ?_, ends := ?_, past := ?_, started := ?_, returned := ?_ }
  · have hothers : outer.map (h.takes m t).took = outer.map h.took := by
      apply List.map_congr_left
      intro j hj
      exact hother j fun heq => hnotin (heq ▸ hj)
    show m.agenda.filterMap Duty.ran? = h.runs.map (h.takes m t).took
    rw [hm, hruns, List.map_cons, hothers, took_takes, if_pos rfl, hfirst, ← hrest,
      List.filterMap_append, filterMap_ran?_acts]
    rfl
  · have hends := hh.ends
    rw [hagenda] at hends
    show m.agenda.filterMap Duty.end? = (t :: h.underway).map _
    rw [hm, List.map_cons, ← hends, List.filterMap_append, filterMap_end?_acts]
    rfl
  · intro e he
    rcases List.mem_append.1 he with he | he
    · exact hh.past e he
    · rw [List.mem_singleton.1 he]
      apply hh.begun
      rw [hruns]
      exact List.mem_cons_self
  · intro u hu
    show u ∈ (h.started ++ [(h.current, t)]).map Prod.snd
    rw [List.map_append, List.mem_append]
    rcases List.mem_cons.1 hu with rfl | hu
    · exact Or.inr List.mem_cons_self
    · exact Or.inl (hh.started u hu)
  · intro r hr
    obtain ⟨hrun, hlt, hresult, hleft⟩ := hh.returned r hr
    refine ⟨hrun, hlt, ?_, hleft⟩
    -- a run that has returned is not in progress, so it has not taken this task
    rw [hresult, hother]
    intro heq
    apply hrun
    rw [hruns, heq]
    exact List.mem_cons_self

theorem Nested.returns {h : History ι} (hh : h.Nested) {rest : List (Duty ι)}
    (hagenda : h.machine.agenda = .run ran inside :: rest) {m : Machine ι} (hm : m.agenda = rest)
    (hreport : m.report? inside = some ran) (hqueue : m.loop.queue = []) : (h.returns m inside).Nested := by
  obtain ⟨outer, hruns, hnotin, hfirst, hrest⟩ := hh.innermost hagenda
  have htail : (h.returns m inside).runs = outer := by
    rw [History.returns, hruns, List.tail_cons]
  have houter : ∀ j ∈ outer, j ∈ h.runs := by
    intro j hj
    rw [hruns]
    exact List.mem_cons_of_mem _ hj
  refine { hh with ran := ?_, ends := ?_, distinct := ?_, begun := ?_, returned := ?_ }
  · rw [htail]
    show m.agenda.filterMap Duty.ran? = outer.map h.took
    rw [hm, hrest]
  · have hends := hh.ends
    rw [hagenda] at hends
    show m.agenda.filterMap Duty.end? = h.underway.map _
    rw [hm, ← hends]
    rfl
  · have hdistinct := hh.distinct
    rw [hruns] at hdistinct
    rw [htail]
    exact (List.nodup_cons.1 hdistinct).2
  · intro j hj
    rw [htail] at hj
    exact hh.begun j (houter j hj)
  · intro r hr
    rw [htail]
    rcases List.mem_append.1 hr with hr | hr
    · obtain ⟨hrun, hold⟩ := hh.returned r hr
      exact ⟨fun hmem => hrun (houter _ hmem), hold⟩
    · rw [List.mem_singleton.1 hr]
      refine ⟨hnotin, ?_, ?_, hqueue⟩
      · apply hh.begun
        rw [hruns]
        exact List.mem_cons_self
      · rw [hreport]
        exact congrArg some hfirst.symm

/-- The task whose end stands first on the agenda is the innermost one. -/
theorem Nested.ending {h : History ι} (hh : h.Nested) {label : ι} {throws : Option String}
    {rest : List (Duty ι)} (hagenda : h.machine.agenda = .done label throws :: rest) :
    ∃ t outer, h.underway = t :: outer ∧ t ∈ h.started.map Prod.snd ∧ t.label = label ∧ t.throws = throws ∧
      rest.filterMap Duty.end? = outer.map fun t => (t.label, t.throws) := by
  have hends := hh.ends
  rw [hagenda] at hends
  cases hunder : h.underway with
  | nil => simp [hunder, Duty.end?] at hends
  | cons t outer =>
    rw [hunder] at hends
    obtain ⟨hfirst, hrest⟩ := List.cons.inj hends
    obtain ⟨hlabel, hthrows⟩ := Prod.mk.inj hfirst
    exact ⟨t, outer, rfl, hh.started t (by rw [hunder]; exact List.mem_cons_self), hlabel.symm,
      hthrows.symm, hrest⟩

theorem Does.nested {h k : History ι} {d : Duty ι} {rest : List (Duty ι)} (hd : Does h rest d k)
    (hagenda : h.machine.agenda = d :: rest) (hh : h.Nested) (hkept : h.Kept) : k.Nested := by
  -- a duty that is taken off the agenda, and is neither a run nor the end of a task
  have hpop : ∀ {m : Machine ι} {a : Act ι}, d = .act a → m.agenda = rest →
      m.agenda.filterMap Duty.ran? = h.machine.agenda.filterMap Duty.ran? ∧
        m.agenda.filterMap Duty.end? = h.machine.agenda.filterMap Duty.end? := by
    rintro m a rfl hm
    rw [hm, hagenda]
    exact ⟨rfl, rfl⟩
  cases hd with
  | posts t _ hm | closes _ hm | passes _ hm => exact hh.replan (hpop rfl hm).1 (hpop rfl hm).2 rfl
  | begins _ hm => exact hh.begins (by rw [hm, hagenda]; rfl) (by rw [hm, hagenda]; rfl)
  | @ends label m _ hm =>
    obtain ⟨t, outer, hunder, -, -, -, hrest⟩ := hh.ending hagenda
    refine { hh with ran := ?_, ends := ?_, started := ?_ }
    · show m.agenda.filterMap Duty.ran? = h.runs.map h.took
      rw [hm, ← hh.ran, hagenda]
      rfl
    · rw [hm, hunder]
      exact hrest
    · intro u hu
      exact hh.started u (List.mem_of_mem_tail hu)
  | throws _ hm =>
    exact { hh with
      ran := by rw [hm]; rfl
      ends := by rw [hm]; rfl
      distinct := List.nodup_nil
      begun := nofun
      started := nofun
      returned r hr := ⟨List.not_mem_nil, (hh.returned r hr).2⟩ }
  | takes _ hm => exact hh.takes hagenda hm
  | returns hnext hloop hm hreport =>
    refine hh.returns hagenda hm hreport ?_
    rw [hloop]
    exact hkept.queue_of_next? hnext

theorem Nested.step {h : History ι} (hh : h.Nested) (hkept : h.Kept) : h.step.Nested := by
  cases hagenda : h.machine.agenda with
  | nil => rwa [step_of_idle hagenda]
  | cons d rest => exact (does_step hagenda).nested hagenda hh hkept

theorem Nested.after {h : History ι} (hh : h.Nested) (hkept : h.Kept) (m : Move ι) :
    (h.after m).Nested := by
  cases m with
  | step => exact hh.step hkept
  | drive =>
    rw [History.after]
    split
    next hempty =>
      rw [List.isEmpty_iff] at hempty
      refine hh.begins ?_ ?_ <;>
      · rw [hempty]
        rfl
    next => exact hh
  | post t => exact { hh with }
  | close => exact { hh with }

theorem nested_run (moves : List (Move ι)) : (run moves).Nested := by
  induction moves using List.reverseRecOn with
  | nil => exact ⟨rfl, rfl, List.nodup_nil, nofun, nofun, nofun, nofun⟩
  | append_singleton moves m ih =>
    rw [run_concat]
    exact ih.after (kept_run moves) m

/-! ## A run comes to its end -/

theorem machine_step (h : History ι) : h.step.machine = h.machine.step := by
  rw [step]
  split
  next hagenda => rw [Machine.step, hagenda]
  next => rfl
  next => rfl
  next => rfl
  next => rfl
  next => rfl
  next => rfl
  next => split <;> rfl

/-- The run `i` of the program is in progress: it is at the bottom of the agenda, and all other runs are inside
of tasks. -/
structure Driven (i : Nat) (h : History ι) : Prop where
  bottom : ∃ front ran, h.machine.agenda = front ++ [.run ran false] ∧ ∀ n, Duty.run n false ∉ front
  outermost : h.runs.getLast? = some i

/-- The run `i` of the program is over: it has returned, or a task has thrown. -/
structure Over (i : Nat) (h : History ι) : Prop where
  agenda : h.machine.agenda = []
  outcome : (∃ r ∈ h.returned, r.run = i ∧ h.machine.outcome = .ran (h.took i) ∧ h.machine.loop.queue = []) ∨
    ∃ message, h.machine.outcome = .threw message ∧ (∀ r ∈ h.returned, r.run ≠ i) ∧
      ∃ t ∈ h.started.map Prod.snd, t.throws = some message

/-- The run of the program itself goes on with a task, or returns. -/
theorem Driven.does_alone {h k : History ι} (hi : Driven i h) (hh : h.Nested) (hkept : h.Kept)
    (hagenda : h.machine.agenda = [.run ran false]) (hd : Does h [] (.run ran false) k) :
    Driven i k ∨ Over i k := by
  obtain ⟨outer, hruns, -, hfirst, hrest⟩ := hh.innermost hagenda
  obtain rfl : outer = [] := by simpa using hrest.symm
  have hcurrent : h.current = i := by simpa [hruns] using hi.outermost
  cases hd with
  | @takes _ _ t m _ hm =>
    left
    refine ⟨⟨t.acts.map Duty.act ++ [.done t.label t.throws], ran + 1, ?_, by simp⟩, hi.outermost⟩
    rw [History.takes, hm, List.append_assoc]
    rfl
  | @returns _ _ m hnext hloop hm hreport =>
    right
    refine ⟨hm, Or.inl ⟨_, List.mem_append_right _ List.mem_cons_self, hcurrent, ?_, ?_⟩⟩
    · show m.outcome = .ran (h.took i)
      cases houtcome : m.outcome with
      | threw message => simp [Machine.report?, houtcome] at hreport
      | ran n =>
        obtain rfl : n = ran := by simpa [Machine.report?, houtcome] using hreport
        rw [← hfirst, hcurrent]
    · rw [History.returns, hloop]
      exact hkept.queue_of_next? hnext

/-- Something inside of a task is done: the run of the program goes on, unless the task throws. -/
theorem Driven.does_inside {h k : History ι} {d : Duty ι} {front : List (Duty ι)} (hi : Driven i h)
    (hh : h.Nested) (hagenda : h.machine.agenda = d :: (front ++ [.run ran false]))
    (hfront : ∀ n, Duty.run n false ∉ d :: front) (hd : Does h (front ++ [.run ran false]) d k) :
    Driven i k ∨ Over i k := by
  have hinner : ∀ n, Duty.run n false ∉ front := by
    intro n hmem
    exact hfront n (List.mem_cons_of_mem d hmem)
  cases hd with
  | posts _ _ hm | closes _ hm | passes _ hm | ends _ hm => exact Or.inl ⟨⟨front, ran, hm, hinner⟩, hi.outermost⟩
  | begins _ hm =>
    refine Or.inl ⟨⟨.run 0 true :: front, ran, hm, by simpa using hinner⟩, ?_⟩
    rw [History.begins, List.getLast?_cons, hi.outermost]
    rfl
  | throws _ hm houtcome =>
    obtain ⟨t, outer, -, hstarted, -, hthrows, -⟩ := hh.ending hagenda
    refine Or.inr ⟨hm, Or.inr ⟨_, houtcome, ?_, t, hstarted, hthrows⟩⟩
    rintro r hr rfl
    exact (hh.returned r hr).1 (List.mem_of_getLast? hi.outermost)
  | @takes n inside t m _ hm =>
    cases inside with
    | false => exact absurd List.mem_cons_self (hfront n)
    | true =>
      refine Or.inl ⟨⟨t.acts.map Duty.act ++ .done t.label t.throws :: .run (n + 1) true :: front, ran, ?_,
        by simpa using hinner⟩, hi.outermost⟩
      rw [History.takes, hm, List.append_assoc]
      rfl
  | @returns n inside m _ _ hm =>
    cases inside with
    | false => exact absurd List.mem_cons_self (hfront n)
    | true =>
      refine Or.inl ⟨⟨front, ran, hm, hinner⟩, ?_⟩
      -- below a run inside of a task there is another one
      obtain ⟨outer, hruns, -, -, hrest⟩ := hh.innermost hagenda
      have hlast := hi.outermost
      cases outer with
      | nil => simp [Duty.ran?] at hrest
      | cons j more =>
        rw [hruns] at hlast
        rw [History.returns, hruns]
        exact hlast

theorem Driven.step {h : History ι} (hi : Driven i h) (hh : h.Nested) (hkept : h.Kept) :
    Driven i h.step ∨ Over i h.step := by
  obtain ⟨front, ran, hagenda, hfront⟩ := hi.bottom
  cases front with
  | nil => exact hi.does_alone hh hkept hagenda (does_step hagenda)
  | cons d front => exact hi.does_inside hh hagenda hfront (does_step hagenda)

/-- The steps of a run lead to its end, which is where `Machine.finish` gets. -/
theorem Driven.over {h : History ι} (hi : Driven i h) (hh : h.Nested) (hkept : h.Kept) :
    ∃ n, (History.step^[n] h).machine = h.machine.finish ∧ Over i (History.step^[n] h) := by
  induction hwork : h.machine.work using Nat.strongRecOn generalizing h with
  | ind work ih =>
    obtain ⟨front, ran, hagenda, -⟩ := hi.bottom
    have hne : h.machine.agenda ≠ [] := by
      rw [hagenda]
      exact List.append_ne_nil_of_right_ne_nil _ (List.cons_ne_nil _ _)
    have hfinish : h.machine.finish = h.step.machine.finish := by
      rw [Machine.finish, if_neg (by simpa using hne), machine_step]
    rcases hi.step hh hkept with hdriven | hover
    · have hlt : h.step.machine.work < work := by
        rw [machine_step, ← hwork]
        exact work_step_lt _ hne
      obtain ⟨n, hmachine, hover⟩ := ih _ hlt hdriven (hh.step hkept) ((changes_step h).kept hkept) rfl
      exact ⟨n + 1, hmachine.trans hfinish.symm, hover⟩
    · refine ⟨1, ?_, hover⟩
      rw [hfinish, Machine.finish, if_pos (by rw [hover.agenda]; rfl)]
      rfl

end History

/-! ## After the loop is closed -/

/-- The event neither starts nor accepts a task, and it finds none queued. -/
def Event.barren : Event ι → Bool
  | .began _ => false
  | .posted _ accepted => !accepted
  | .size n => n == 0
  | _ => true

theorem Machine.events_step {m : Machine ι} (hclosed : m.loop.closed = true) (hempty : m.loop.queue = []) :
    ∃ events, m.step.events = m.events ++ events ∧ ∀ e ∈ events, e.barren = true := by
  have hnone : ∃ events, m.events = m.events ++ events ∧ ∀ e ∈ events, e.barren = true :=
    ⟨[], (List.append_nil _).symm, nofun⟩
  have hone : ∀ e : Event ι, e.barren = true →
      ∃ events, m.events ++ [e] = m.events ++ events ∧ ∀ e ∈ events, e.barren = true := by
    intro e he
    exact ⟨[e], rfl, by simpa using he⟩
  rw [Machine.step]
  split
  next => exact hnone
  next d rest hagenda =>
    cases d with
    | act a =>
      cases a with
      | post label acts throws =>
        simp only [Machine.discharge, Machine.perform, post_of_closed hclosed]
        exact hone (.posted label false) rfl
      | size =>
        refine hone (.size m.loop.size) ?_
        rw [Loop.size, hempty]
        rfl
      | close | run | withdraw => exact hnone
    | done label throws =>
      cases throws with
      | none => exact hone (.ended label) rfl
      | some message => exact hnone
    | run ran inside =>
      simp only [Machine.discharge, next?_of_closed hclosed]
      cases inside with
      | true => exact hone (.ranInside ran) rfl
      | false => exact hnone

namespace History

/-- Whatever happens after the loop was closed, nothing is started or accepted. -/
theorem barren_after {h : History ι} (hkept : h.Kept) (hclosed : h.machine.loop.closed = true) (m : Move ι) :
    ∃ events, (h.after m).machine.events = h.machine.events ++ events ∧ ∀ e ∈ events, e.barren = true := by
  cases m with
  | step =>
    rw [after, machine_step]
    exact Machine.events_step hclosed (hkept.empty hclosed)
  | drive =>
    refine ⟨[], ?_, nofun⟩
    rw [after, List.append_nil]
    split <;> rfl
  | post t | close => exact ⟨[], (List.append_nil _).symm, nofun⟩

theorem closed_append (moves : List (Move ι)) (hclosed : (run moves).machine.loop.closed = true)
    (more : List (Move ι)) :
    (run (moves ++ more)).machine.loop.closed = true ∧ (run (moves ++ more)).started = (run moves).started ∧
      ∃ events, (run (moves ++ more)).machine.events = (run moves).machine.events ++ events ∧
        ∀ e ∈ events, e.barren = true := by
  induction more using List.reverseRecOn with
  | nil =>
    rw [List.append_nil]
    exact ⟨hclosed, rfl, [], (List.append_nil _).symm, nofun⟩
  | append_singleton more m ih =>
    obtain ⟨hstill, hstarted, events, hevents, hbarren⟩ := ih
    rw [← List.append_assoc, run_concat]
    obtain ⟨hnow, hnone, -⟩ := (changes_after _ m).of_closed hstill
    obtain ⟨news, hnews, hbarren'⟩ := barren_after (kept_run _) hstill m
    refine ⟨hnow, hnone.trans hstarted, events ++ news, ?_, ?_⟩
    · rw [hnews, hevents, List.append_assoc]
    · intro e he
      rcases List.mem_append.1 he with he | he
      · exact hbarren e he
      · exact hbarren' e he

theorem foldl_step (h : History ι) (n : Nat) :
    (List.replicate n Move.step).foldl after h = step^[n] h := by
  induction n generalizing h with
  | zero => rfl
  | succ n ih => exact ih h.step

/-- Until the loop is closed it accepts every task, and the tasks that were started, followed by those that are
queued, are the accepted ones in the order of posting. Once it is closed, for the first time or again, it accepts
no task, has none and starts none, whatever happens later. A run that has returned has left no task, and has
reported the number of tasks that it took itself. A run of the program comes to its end: it returns, or a task
throws. A task that throws was taken from the queue, and it ends all runs in progress and changes no more. -/
theorem tasks_started_in_order (moves : List (Move ι)) :
    let h := run moves
    let m := h.machine
    (m.loop.closed = false →
      h.started.map Prod.snd ++ m.loop.queue = h.accepted ∧ ∀ t, (m.loop.post t).2 = true) ∧
    (m.loop.closed = true ↔ 0 < h.closings) ∧
    (m.loop.closed = true → ∀ more, let k := run (moves ++ more)
      k.started = h.started ∧ k.machine.loop.queue = [] ∧ k.machine.loop.size = 0 ∧
      (∀ t, (k.machine.loop.post t).2 = false) ∧
      ∃ events, k.machine.events = m.events ++ events ∧ ∀ e ∈ events, e.barren = true) ∧
    (∀ r ∈ h.returned, r.result = some (h.took r.run) ∧ r.left = []) ∧
    (m.agenda = [] → ∃ n, let k := run (moves ++ .drive :: List.replicate n .step)
      k.machine = m.runPending ∧ Over h.begun k) ∧
    (∀ label message rest, m.agenda = .done label (some message) :: rest →
      (∃ t outer, h.underway = t :: outer ∧ t ∈ h.started.map Prod.snd ∧ t.label = label ∧
        t.throws = some message) ∧
      let k := h.after .step
      k.machine.agenda = [] ∧ k.runs = [] ∧ k.machine.outcome = .threw message ∧
        k.machine.loop = m.loop ∧ k.started = h.started) := by
  intro h m
  have hkept := kept_run moves
  have hnested := nested_run moves
  refine ⟨fun hopen => ⟨hkept.order hopen, fun t => ?_⟩, hkept.closed, fun hclosed more => ?_, fun r hr => ?_,
    fun hidle => ?_, fun label message rest hagenda => ?_⟩
  · rw [post_of_open hopen]
  · obtain ⟨hstill, hstarted, hevents⟩ := closed_append moves hclosed more
    have hqueue := (kept_run (moves ++ more)).empty hstill
    refine ⟨hstarted, hqueue, ?_, fun t => ?_, hevents⟩
    · rw [Loop.size, hqueue]
      rfl
    · rw [post_of_closed hstill]
  · exact (hnested.returned r hr).2.2
  · have hruns : h.runs = [] := by
      have hran := hnested.ran
      rw [show (run moves).machine.agenda = [] from hidle] at hran
      simpa using hran.symm
    have hdrive : h.after .drive = h.begins { m with agenda := [.run 0 false] } := by
      rw [after, if_pos (List.isEmpty_iff.2 hidle)]
    have hdriven : Driven h.begun (h.after .drive) := by
      rw [hdrive]
      refine ⟨⟨[], 0, rfl, nofun⟩, ?_⟩
      rw [History.begins, hruns]
      rfl
    obtain ⟨n, hmachine, hover⟩ := hdriven.over (hnested.after hkept .drive) ((changes_after h .drive).kept hkept)
    refine ⟨n, ?_⟩
    rw [run_append, List.foldl_cons, foldl_step]
    refine ⟨?_, hover⟩
    rw [hmachine, hdrive]
    rfl
  · obtain ⟨t, outer, hunder, hstarted, hlabel, hthrows, -⟩ := hnested.ending hagenda
    refine ⟨⟨t, outer, hunder, hstarted, hlabel, hthrows⟩, ?_⟩
    have hdoes := does_step hagenda
    rw [after]
    generalize h.step = k at hdoes ⊢
    cases hdoes with
    | throws hloop hm houtcome => exact ⟨hm, rfl, houtcome, hloop, rfl⟩

/-- A run in which a task posts another one and runs the pending tasks itself; the second task throws. -/
def thrownInside : List (Move Nat) :=
  [.post ⟨0, [.post 3 [] none, .run], none⟩, .post ⟨1, [], none⟩, .post ⟨2, [.size], some "no"⟩, .drive, .step,
    .step, .step, .step, .step, .step, .step, .step]

theorem tasks_started_in_order_thrownInside :
    let h := run thrownInside
    h.machine.loop.closed = false ∧ h.machine.outcome = .threw "no" ∧
      h.started.map (fun e => (e.1, e.2.label)) = [(0, 0), (1, 1), (1, 2)] ∧
      h.machine.loop.queue.map Task.label = [3] ∧ h.accepted.map Task.label = [0, 1, 2, 3] ∧
      h.started.map Prod.snd ++ h.machine.loop.queue = h.accepted :=
  ⟨by decide, by decide, by decide, by decide, by decide,
    ((tasks_started_in_order thrownInside).1 (by decide)).1⟩

end History

end PollSocket.Loop
