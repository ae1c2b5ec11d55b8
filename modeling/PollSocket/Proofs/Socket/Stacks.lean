import PollSocket.Proofs.Socket.Likeness
import PollSocket.Proofs.Socket.Polling

set_option autoImplicit false

/-!
# What stands on what

The agenda is a stack. `Duty.Above` says what may stand directly above what: the acts of a handler on
each other and on the end of that handler, a run on a part of the handler that started it, and any other
duty of a socket on a run or on a duty of the same socket. So two neighbours of different sockets are
always parted by a run, and every act that is to be done is one of the handler whose end comes next
(`frame?_of_handler`). Every agenda of a history is `Stacked` (`stacked_run`), and below all stands the
run that the program has started (`grounded_run`).
-/

namespace PollSocket.Socket

variable {h : History} {agenda : List Duty} {s : Nat} {data : String} {w : World}

/-- The socket that a duty is part of; a run is part of the handler that started it. -/
def Duty.host? : Duty → Option Nat
  | .run _ inside => inside
  | .emit s _ => some s
  | .act s _ _ => some s
  | .leave s _ => some s
  | .dispatch s _ => some s
  | .resume s => some s
  | .begin s => some s
  | .closeIfClosing s => some s

/-- The duty goes on with a run. -/
def Duty.isRun : Duty → Bool
  | .run _ _ => true
  | _ => false

/-- Duty `d` may stand directly above duty `e`. -/
def Duty.Above (d e : Duty) : Prop :=
  match d with
  | .act s data _ => (∃ a, e = .act s data a) ∨ ∃ event, e = .leave s event ∧ event.data = data
  | .run _ inside => e.inner = true ∧ e.host? = inside
  | d => e.isRun = true ∨ e.host? = d.host?

/-- Every duty stands on one that it may stand on. -/
def Stacked (agenda : List Duty) : Prop := agenda.IsChain Duty.Above

/-- Duties of socket `s` may stand on the agenda. -/
def Seats (s : Nat) (agenda : List Duty) : Prop :=
  ∀ e ∈ agenda.head?, e.isRun = true ∨ e.host? = some s

theorem Seats.cons {d : Duty} {rest : List Duty} (h : d.isRun = true ∨ d.host? = some s) :
    Seats s (d :: rest) := by
  intro e he
  rw [List.head?_cons, Option.mem_some] at he
  rw [← he]
  exact h

theorem Job.host?_duty (s : Nat) (j : Job) : (j.duty s).host? = some s := by
  cases j <;> rfl

theorem Job.above_duty {j : Job} {e : Duty} : (j.duty s).Above e ↔ e.isRun = true ∨ e.host? = some s := by
  cases j <;> rfl

namespace Stacked

variable {d : Duty} {rest : List Duty}

theorem tail (h : Stacked (d :: rest)) : Stacked rest := List.IsChain.tail h

theorem head (h : Stacked (d :: rest)) : ∀ e ∈ rest.head?, d.Above e := (List.isChain_cons.1 h).1

theorem cons (h : Stacked rest) (hd : ∀ e ∈ rest.head?, d.Above e) : Stacked (d :: rest) :=
  List.isChain_cons.2 ⟨hd, h⟩

theorem drop (duties : List Duty) (h : Stacked (duties ++ rest)) : Stacked rest :=
  (List.isChain_append.1 h).2.1

/-- Below a job of a socket there is place for others. -/
theorem seats {j : Job} (h : Stacked (j.duty s :: rest)) : Seats s rest :=
  fun e he => Job.above_duty.1 (h.head e he)

theorem jobs (h : Stacked rest) (hseats : Seats s rest) (jobs : List Job) :
    Stacked (jobs.map (Job.duty s) ++ rest) ∧ Seats s (jobs.map (Job.duty s) ++ rest) := by
  induction jobs with
  | nil => exact ⟨h, hseats⟩
  | cons j more ih =>
    refine ⟨ih.1.cons fun e he => Job.above_duty.2 (ih.2 e he), Seats.cons (Or.inr ?_)⟩
    exact j.host?_duty s

/-- Acts stand on acts of the same handler and on its end. -/
theorem acts (h : Stacked rest)
    (hbelow : ∀ e ∈ rest.head?, (∃ a, e = .act s data a) ∨ ∃ event, e = .leave s event ∧ event.data = data)
    (script : Script) : Stacked (script.map (.act s data) ++ rest) := by
  induction script with
  | nil => exact h
  | cons a more ih =>
    apply ih.cons
    intro e he
    cases more with
    | nil => exact hbelow e he
    | cons b _ =>
      rw [List.map_cons, List.cons_append, List.head?_cons, Option.mem_some] at he
      exact Or.inl ⟨b, he.symm⟩

/-- A handler stands where a job of its socket may stand. -/
theorem handler (h : Stacked rest) (hseats : Seats s rest) (event : Event) (script : Script) :
    Stacked (script.map (.act s event.data) ++ .leave s event :: rest) := by
  apply acts (h.cons (d := .leave s event) hseats)
  intro e he
  rw [List.head?_cons, Option.mem_some] at he
  exact Or.inr ⟨event, he.symm, rfl⟩

end Stacked

/-! ## Handlers -/

/-- The end of the handler that is being executed: its socket and the occasion. -/
def frame? : List Duty → Option (Nat × Event)
  | .act _ _ _ :: rest => frame? rest
  | .leave s event :: _ => some (s, event)
  | _ => none

/-- The acts that are to be done are acts of the handler whose end comes next. -/
theorem frame?_of_handler (h : Stacked w.agenda) (hnested : Nested w.agenda)
    (hw : w.handler? = some (s, data)) : ∃ event, frame? w.agenda = some (s, event) ∧ event.data = data := by
  have hgoal : ∀ agenda : List Duty, Stacked agenda → Nested agenda →
      ({ w with agenda } : World).handler? = some (s, data) →
      ∃ event, frame? agenda = some (s, event) ∧ event.data = data := by
    intro agenda
    induction agenda with
    | nil =>
      intro _ _ hnone
      cases hnone
    | cons d rest ih =>
      intro hstacked hnest hhandler
      cases d with
      | leave r event =>
        cases hhandler
        exact ⟨event, rfl, rfl⟩
      | act r data' a =>
        cases hhandler
        cases rest with
        | nil => exact absurd hnest.1 (by simp [insideHandler])
        | cons e below =>
          apply ih hstacked.tail hnest.2
          -- what stands below is an act of the same handler, or its end
          rcases hstacked.head e rfl with ⟨b, rfl⟩ | ⟨event, rfl, hdata⟩
          · rfl
          · rw [← hdata]
            rfl
      | _ => cases hhandler
  exact hgoal w.agenda h hnested hw

/-- A handler that throws is the one whose end comes next; what stands below it stays. -/
theorem unwind_of_frame? (hnested : Nested agenda) {event : Event}
    (hframe : frame? agenda = some (s, event)) :
    ∃ acts rest, agenda = acts ++ .leave s event :: rest ∧
      (∀ d ∈ acts, d.isAct = true) ∧
      World.unwind agenda = some (s, event, rest) := by
  induction agenda with
  | nil => cases hframe
  | cons d rest ih =>
    cases d with
    | leave r e =>
      cases hframe
      exact ⟨[], rest, rfl, by simp, rfl⟩
    | act r data a =>
      obtain ⟨acts, below, hrest, hacts, hunwind⟩ := ih hnested.2 hframe
      exact ⟨.act r data a :: acts, below, by rw [hrest]; rfl, List.forall_mem_cons.2 ⟨rfl, hacts⟩, hunwind⟩
    | _ => cases hframe

/-! ## The invariant -/

/-- Tasks of a socket stack its jobs. -/
theorem kept_stacked (s : Nat) : Kept (fun w => Stacked w.agenda ∧ Seats s w.agenda) s where
  update h _ _ := h
  log h _ _ _ := h
  push h jobs _ := h.1.jobs h.2 jobs
  issue h _ _ := h
  release {w} h := by
    rw [World.agenda_release]
    exact h

theorem Stacked.throw (h : Stacked w.agenda) (hin : insideHandler w.agenda = true) (hnested : Nested w.agenda)
    (value : Thrown) : Stacked (w.throw value).agenda := by
  obtain ⟨acts, s, event, rest, hagenda, -, hunwind, -⟩ := unwind_nested hin hnested
  rw [hagenda] at h
  have hleave := h.drop acts
  have hcry : Stacked (Duty.emit s (.error (.callback event.slot.name value)) :: rest) :=
    hleave.tail.cons hleave.head
  unfold World.throw
  rw [hunwind]
  cases event with
  | opened | message => exact hcry
  | error | closed => exact hleave.tail

theorem Stacked.perform (h : Stacked w.agenda) (hin : insideHandler w.agenda = true)
    (hnested : Nested w.agenda)
    (hbelow : ∀ e ∈ w.agenda.head?,
      (∃ a, e = .act s data a) ∨ ∃ event, e = .leave s event ∧ event.data = data)
    (a : Act) : Stacked (w.perform s data a).agenda := by
  cases a with
  | send | close | closeWhenDrained =>
    simp only [World.perform, World.agenda_postOr]
    exact h
  | throw value => exact h.throw hin hnested value
  | whenData expected script =>
    simp only [World.perform]
    split
    · exact h.acts hbelow script
    · exact h
  | runLoop =>
    apply h.cons
    intro e he
    rcases hbelow e he with ⟨b, rfl⟩ | ⟨event, rfl, -⟩ <;> exact ⟨rfl, rfl⟩
  | _ => exact h

theorem Stacked.step (h : Stacked w.agenda) (hnested : Nested w.agenda) : Stacked w.step.agenda := by
  unfold World.step
  cases hagenda : w.agenda with
  | nil =>
    show Stacked w.agenda
    rw [hagenda]
    exact List.IsChain.nil
  | cons d rest =>
    rw [hagenda] at h hnested
    set v : World := { w with agenda := rest }
    cases d using Duty.byJobs with
    | run ran inside =>
      dsimp only [World.discharge]
      cases v.loop.next? with
      | none => cases inside <;> exact h.tail
      | some next =>
        obtain ⟨t, loop⟩ := next
        dsimp only
        -- the task finds the run that took it on top
        have hrun : Stacked (({ v with loop } : World).push [.run (ran + 1) inside]).agenda :=
          h.tail.cons h.head
        cases hhost : t.host? (({ v with loop } : World).push [.run (ran + 1) inside]) with
        | none =>
          rw [World.execute_of_host?_none hhost]
          exact hrun
        | some s => exact ((kept_stacked s).execute ⟨hrun, Seats.cons (Or.inl rfl)⟩ hhost).1
    | act s data a => exact h.tail.perform (w := v) hnested.1 hnested.2 h.head a
    | leave s event => exact h.tail
    | job s j =>
      cases j with
      | emit event =>
        dsimp only [Job.duty, World.discharge, World.emit]
        split
        · exact h.tail
        next script _ =>
          show Stacked ((script.map (.act s event.data) ++ [.leave s event]) ++ rest)
          rw [List.append_assoc]
          exact h.tail.handler h.seats event script
      | _ =>
        exact ((kept_stacked s).discharge (w := v) ⟨h.tail, h.seats⟩ rfl).1

theorem stacked_after (hs : Sound h.toBooks h.world) (hstacked : Stacked h.world.agenda) (m : Move) :
    Stacked (h.after m).world.agenda := by
  have hmoves := h.moves_after m
  generalize h.after m = k at hmoves ⊢
  cases hmoves with
  | step => exact hstacked.step hs.shape.nested
  | drive => exact List.IsChain.singleton _
  | create o =>
    show Stacked (h.world.create o).agenda
    rw [World.agenda_create]
    exact hstacked
  | act a hhandler =>
    apply hstacked.perform (hs.handler hhandler).1 hs.shape.nested
    intro e he
    unfold World.handler? at hhandler
    cases hagenda : h.world.agenda with
    | nil =>
      rw [hagenda] at he
      cases he
    | cons d rest =>
      rw [hagenda] at he hhandler
      rw [List.head?_cons, Option.mem_some] at he
      subst he
      cases d with
      | act r _ b =>
        cases hhandler
        exact Or.inl ⟨b, rfl⟩
      | leave r event =>
        cases hhandler
        exact Or.inr ⟨event, rfl, rfl⟩
      | _ => cases hhandler
  | _ => exact hstacked

theorem stacked_run (moves : List Move) : Stacked (History.run moves).world.agenda := by
  induction moves using List.reverseRecOn with
  | nil => exact List.IsChain.nil
  | append_singleton front m ih =>
    rw [History.run_concat]
    exact stacked_after (sound_run front) ih m

/-- Below all duties stands a run of the program. -/
def Grounded (agenda : List Duty) : Prop := agenda = [] ∨ ∃ ran, [.run ran none] <:+ agenda

theorem Grounded.mem (h : Grounded agenda) (hne : agenda ≠ []) : ∃ ran, Duty.run ran none ∈ agenda := by
  rcases h with hnil | ⟨ran, hran⟩
  · exact absurd hnil hne
  · exact ⟨ran, hran.subset (List.mem_singleton_self _)⟩

theorem grounded_after (hs : Sound h.toBooks h.world) (hgrounded : Grounded h.world.agenda) (m : Move) :
    Grounded (h.after m).world.agenda := by
  rcases hgrounded with hnil | ⟨ran, hran⟩
  · -- only the program can begin a run
    have hmoves := h.moves_after m
    generalize h.after m = k at hmoves ⊢
    cases hmoves with
    | step =>
      left
      show h.world.step.agenda = []
      simp only [World.step, hnil]
    | drive => exact Or.inr ⟨0, List.suffix_rfl⟩
    | create o => exact Or.inl ((World.agenda_create _ o).trans hnil)
    | act a hhandler => simp [World.handler?, hnil] at hhandler
    | _ => exact Or.inl hnil
  · rcases stacks_after hs m rfl hran with hsuffix | ⟨-, hworld⟩
    · exact Or.inr ⟨ran, hsuffix⟩
    · rw [hworld]
      dsimp only [World.discharge]
      cases hnext : h.world.loop.next? with
      | none => exact Or.inl rfl
      | some next =>
        obtain ⟨t, loop⟩ := next
        right
        refine ⟨ran + 1, ?_⟩
        obtain ⟨duties, hduties, -⟩ := World.plans_execute
          (({ h.world with agenda := [], loop } : World).push [.run (ran + 1) none]) t
        rw [hduties]
        exact List.suffix_append _ _

theorem grounded_run (moves : List Move) : Grounded (History.run moves).world.agenda := by
  induction moves using List.reverseRecOn with
  | nil => exact Or.inl rfl
  | append_singleton front m ih =>
    rw [History.run_concat]
    exact grounded_after (sound_run front) ih m

end PollSocket.Socket
