import PollSocket.Proofs.Socket.Dispatch
import PollSocket.Proofs.Socket.Stacks

set_option autoImplicit false

/-!
# Values that handlers throw

A value that a handler throws ends that handler and nothing else. The handlers of the open and of a
message have it told to the consumer as an error, the others have it recorded only.

`calmed` makes of a run the run in which the same scripts end where they would throw, and the handler of
errors is not called for thrown values. The worlds of the two runs differ in scripts, and in the calls of
that handler which are going on (`Calm`); all tasks, jobs and acts keep this. So the calls, the states, the
sessions, the queues and the other callbacks of both runs are the same (`throws_harmless`).
-/

namespace PollSocket.Socket

variable {event : Event} {s : Nat} {w : World}

/-! ## Acts that are performed -/

/-- The act throws. -/
def Act.throws : Act → Bool
  | .throw _ => true
  | _ => false

/-- The act depends on the data of the occasion. -/
def Act.conditional : Act → Bool
  | .whenData _ _ => true
  | _ => false

/-- The act is no operation on the socket or on the loop. -/
def Act.isNoOp : Act → Bool
  | .throw _ => true
  | .report => true
  | _ => false

/-- The act that a move performs, with the socket and the occasion of the handler that performs it. -/
def World.performing? (w : World) : Move → Option (Nat × Event × Act)
  | .step =>
    match w.agenda with
    | .act _ _ a :: rest => (frame? rest).map fun frame => (frame.1, frame.2, a)
    | _ => none
  | .act a => (frame? w.agenda).map fun frame => (frame.1, frame.2, a)
  | _ => none

/-- Acts that the moves perform from a history on, oldest first. -/
def performed : History → List Move → List (Nat × Event × Act)
  | _, [] => []
  | h, m :: more => (h.world.performing? m).toList ++ performed (h.after m) more

/-- What the consumer of socket `s` is told when its handler of an occasion throws. -/
def Event.cry? (event : Event) (s : Nat) (value : Thrown) : Option (Nat × Event) :=
  match event with
  | .opened => some (s, .error (.callback event.slot.name value))
  | .message _ => some (s, .error (.callback event.slot.name value))
  | .error _ => none
  | .closed => none

/-- What the consumer is told about an act. -/
def cry? (p : Nat × Event × Act) : Option (Nat × Event) :=
  match p.2.2 with
  | .throw value => p.2.1.cry? p.1 value
  | _ => none

/-- The thrown value that the consumer is told of next. -/
def World.cry? (w : World) : Option (Nat × Event) := w.emitting?.filter fun o => o.2.complains

/-! ## Where thrown values end -/

/-- What is part of a handler is part of one that ends. -/
theorem frame?_of_inside {agenda : List Duty} (hin : insideHandler agenda = true)
    (hnested : Nested agenda) : ∃ s event, frame? agenda = some (s, event) := by
  induction agenda with
  | nil => cases hin
  | cons d rest ih =>
    cases d with
    | act s data a => exact ih hnested.1 hnested.2
    | leave s event => exact ⟨s, event, rfl⟩
    | _ => cases hin

theorem frame?_of_handler_none (h : w.handler? = none) : frame? w.agenda = none := by
  unfold World.handler? at h
  cases hagenda : w.agenda with
  | nil => rfl
  | cons d rest =>
    rw [hagenda] at h
    cases d with
    | act | leave => cases h
    | _ => rfl

/-- The act that a step performs belongs to the innermost handler. -/
theorem World.performing?_of_act (hnested : Nested w.agenda) {data : String} {a : Act} {rest : List Duty}
    (hagenda : w.agenda = .act s data a :: rest) :
    ∃ r event, frame? rest = some (r, event) ∧ w.performing? .step = some (r, event, a) := by
  rw [hagenda] at hnested
  obtain ⟨r, event, hframe⟩ := frame?_of_inside hnested.1 hnested.2
  exact ⟨r, event, hframe, by simp only [World.performing?, hagenda, hframe, Option.map_some]⟩

/-- A thrown value ends the handler whose end comes next. -/
theorem World.throw_eq (hnested : Nested w.agenda) (hframe : frame? w.agenda = some (s, event))
    (value : Thrown) :
    ∃ acts rest journal, w.agenda = acts ++ .leave s event :: rest ∧
      (∀ d ∈ acts, d.isAct = true) ∧
      w.throw value = { w with
        agenda := (event.cry? s value).toList.map (fun o => .emit o.1 o.2) ++ rest
        journal } := by
  obtain ⟨acts, rest, hagenda, hacts, hunwind⟩ := unwind_of_frame? hnested hframe
  refine ⟨acts, rest, (w.throw value).journal, hagenda, hacts, ?_⟩
  unfold World.throw
  rw [hunwind]
  cases event with
  | _ => rfl

/-! ## What the consumer is told of thrown values -/

/-- The duty tells the consumer of a thrown value. -/
def Duty.complains : Duty → Bool
  | .emit _ event => event.complains
  | _ => false

/-- The consumer is not about to be told of a thrown value. -/
def Hushed (agenda : List Duty) : Prop := ∀ d ∈ agenda, d.complains = false

theorem Hushed.append {duties rest : List Duty} (hduties : Hushed duties) (h : Hushed rest) :
    Hushed (duties ++ rest) :=
  List.forall_mem_append.2 ⟨hduties, h⟩

theorem Hushed.acts (s : Nat) (data : String) (script : Script) :
    Hushed (script.map (.act s data)) := by
  intro d hd
  obtain ⟨a, -, rfl⟩ := List.mem_map.1 hd
  rfl

/-- Inside a handler the consumer is not called first. -/
theorem Hushed.of_frame? {agenda : List Duty} {p : Nat × Event} (hframe : frame? agenda = some p)
    (htail : Hushed agenda.tail) : Hushed agenda := by
  cases agenda with
  | nil => exact htail
  | cons d rest =>
    refine List.forall_mem_cons.2 ⟨?_, htail⟩
    cases d with
    | act | leave => rfl
    | _ => cases hframe

theorem World.cry?_of_hushed (h : Hushed w.agenda) : w.cry? = none := by
  unfold World.cry? World.emitting?
  cases hagenda : w.agenda with
  | nil => rfl
  | cons d rest =>
    have hd := h d (hagenda ▸ List.mem_cons_self)
    cases d with
    | emit s event => exact Option.filter_some_neg hd
    | _ => rfl

theorem kept_hushed (s : Nat) : Kept (fun w => Hushed w.agenda) s where
  update h _ _ := h
  log h _ _ _ := h
  push h jobs hjobs := by
    apply Hushed.append _ h
    intro d hd
    obtain ⟨j, hj, rfl⟩ := List.mem_map.1 hd
    have hsilent := hjobs j hj
    cases j with
    | emit event => exact hsilent
    | _ => rfl
  issue h _ _ := h
  release {w} h := by
    rw [World.agenda_release]
    exact h

theorem Hushed.perform (h : Hushed w.agenda) (s : Nat) (data : String) {a : Act} (ha : a.throws = false) :
    Hushed (w.perform s data a).agenda := by
  cases a with
  | send | close | closeWhenDrained =>
    simp only [World.perform, World.agenda_postOr]
    exact h
  | throw value => cases ha
  | whenData expected script =>
    simp only [World.perform]
    split
    · exact Hushed.append (.acts s data script) h
    · exact h
  | runLoop => exact Hushed.append (by simp [Hushed, Duty.complains]) h
  | _ => exact h

/-- Only a handler that throws brings something to tell of. -/
theorem Hushed.discharge (h : Hushed w.agenda) {d : Duty}
    (hd : ∀ s data value, d ≠ .act s data (.throw value)) : Hushed (w.discharge d).agenda := by
  cases d using Duty.byJobs with
  | run ran inside =>
    dsimp only [World.discharge]
    cases w.loop.next? with
    | none => cases inside <;> exact h
    | some next =>
      obtain ⟨t, loop⟩ := next
      have hrun : Hushed (({ w with loop } : World).push [.run (ran + 1) inside]).agenda :=
        Hushed.append (by simp [Hushed, Duty.complains]) h
      dsimp only
      cases hhost : t.host? (({ w with loop } : World).push [.run (ran + 1) inside]) with
      | none =>
        rw [World.execute_of_host?_none hhost]
        exact hrun
      | some s => exact (kept_hushed s).execute hrun hhost
  | act s data a =>
    apply h.perform
    cases a with
    | throw value => exact absurd rfl (hd s data value)
    | _ => rfl
  | leave s event => exact h
  | job s j =>
    cases j with
    | emit event =>
      dsimp only [Job.duty, World.discharge, World.emit]
      split
      · exact h
      next script _ =>
        apply Hushed.append _ h
        exact Hushed.append (.acts s event.data script) (by simp [Hushed, Duty.complains])
    | _ => exact (kept_hushed s).discharge h rfl

/-- After a throw the consumer is told of it first, if at all. -/
theorem World.cry?_throw (hnested : Nested w.agenda) (hushed : Hushed w.agenda)
    (hframe : frame? w.agenda = some (s, event)) (value : Thrown) :
    (w.throw value).cry? = event.cry? s value ∧ Hushed (w.throw value).agenda.tail := by
  obtain ⟨acts, rest, journal, hagenda, -, hthrow⟩ := w.throw_eq hnested hframe value
  have hrest : Hushed rest := by
    intro d hd
    apply hushed d
    rw [hagenda]
    exact List.mem_append_right _ (List.mem_cons_of_mem _ hd)
  rw [hthrow]
  cases event with
  | opened | message => exact ⟨rfl, hrest⟩
  | error | closed => exact ⟨World.cry?_of_hushed hrest, fun d hd => hrest d (List.mem_of_mem_tail hd)⟩

/-- The consumer has been told, or is about to be told, of the values that were thrown. -/
structure Told (h : History) (acts : List (Nat × Event × Act)) : Prop where
  hushed : Hushed h.world.agenda.tail
  told : (h.emitted.filter fun o => o.2.complains) ++ h.world.cry?.toList = acts.filterMap cry?

namespace Told

variable {h k : History} {acts : List (Nat × Event × Act)}

variable (ht : Told h acts)
include ht

/-- A move that performs nothing and leaves the agenda. -/
theorem same (hagenda : k.world.agenda = h.world.agenda) (hemitted : k.emitted = h.emitted) : Told k acts where
  hushed := by
    rw [hagenda]
    exact ht.hushed
  told := by
    rw [hemitted, ← ht.told]
    unfold World.cry? World.emitting?
    rw [hagenda]

/-- A move after which nothing is left to tell. -/
theorem quiet (hushed : Hushed k.world.agenda) {o : Option (Nat × Event)}
    (hemitted : k.emitted = h.emitted ++ o.toList)
    (ho : o.filter (fun o => o.2.complains) = h.world.cry?) {p : Option (Nat × Event × Act)}
    (hp : p.bind cry? = none) : Told k (acts ++ p.toList) where
  hushed d hd := hushed d (List.mem_of_mem_tail hd)
  told := by
    have hnone : p.toList.filterMap cry? = [] := by
      cases p with
      | none => rfl
      | some p => simpa using hp
    have hlast : (o.toList.filter fun o => o.2.complains) = h.world.cry?.toList := by
      rw [← ho]
      cases o with
      | none => rfl
      | some o => cases hc : o.2.complains <;> simp [Option.filter, hc]
    rw [World.cry?_of_hushed hushed, hemitted, List.filter_append, hlast, ht.told,
      List.filterMap_append, hnone]
    simp

/-- A handler throws: what it is told for stands first from then on. -/
theorem throw (hnone : h.world.cry? = none) (hnested : Nested w.agenda)
    (hushed : Hushed w.agenda) (hframe : frame? w.agenda = some (s, event)) {value : Thrown}
    (hworld : k.world = w.throw value) (hemitted : k.emitted = h.emitted) :
    Told k (acts ++ [(s, event, .throw value)]) := by
  obtain ⟨hcry, htail⟩ := World.cry?_throw hnested hushed hframe value
  constructor
  · rw [hworld]
    exact htail
  · rw [hworld, hcry, hemitted, List.filterMap_append, ← ht.told, hnone, Option.toList_none,
      List.append_nil]
    cases event <;> rfl

theorem step (hs : Sound h.toBooks h.world) : Told h.step (acts ++ (h.world.performing? .step).toList) := by
  have hemitted := h.emitted_step
  cases hagenda : h.world.agenda with
  | nil =>
    have hworld : h.world.step = h.world := by simp only [World.step, hagenda]
    rw [show h.world.performing? .step = none by simp only [World.performing?, hagenda],
      Option.toList_none, List.append_nil]
    apply ht.same (congrArg World.agenda hworld)
    rw [hemitted]
    simp [World.emitting?, hagenda]
  | cons d rest =>
    have hworld : h.step.world = _ := World.step_of_cons hagenda
    have hrest : Hushed rest := by
      have htail := ht.hushed
      rwa [hagenda] at htail
    have hnested := hs.shape.nested
    rw [hagenda] at hnested
    have hother : (∀ s data value, d ≠ .act s data (.throw value)) →
        (h.world.performing? .step).bind cry? = none →
        Told h.step (acts ++ (h.world.performing? .step).toList) := by
      intro hd hp
      refine ht.quiet ?_ hemitted rfl hp
      rw [hworld]
      exact Hushed.discharge (w := { h.world with agenda := rest }) hrest hd
    cases d with
    | act s data a =>
      obtain ⟨r, event, hframe, hperforms⟩ := World.performing?_of_act hs.shape.nested hagenda
      cases a with
      | throw value =>
        rw [hperforms]
        apply ht.throw (w := { h.world with agenda := rest }) _ hnested.2 hrest hframe hworld
        · rw [hemitted]
          simp [World.emitting?, hagenda]
        · simp [World.cry?, World.emitting?, hagenda]
      | _ =>
        apply hother (by simp)
        rw [hperforms]
        rfl
    | _ =>
      apply hother (by simp)
      simp only [World.performing?, hagenda, Option.bind_none]

theorem act (hs : Sound h.toBooks h.world) (hstacked : Stacked h.world.agenda)
    (a : Act) : Told (h.after (.act a)) (acts ++ (h.world.performing? (.act a)).toList) := by
  unfold History.after World.performing?
  cases hhandler : h.world.handler? with
  | none =>
    rw [frame?_of_handler_none hhandler]
    simpa using ht
  | some handler =>
    obtain ⟨s, data⟩ := handler
    obtain ⟨event, hframe, -⟩ := frame?_of_handler hstacked hs.shape.nested hhandler
    have hushed := Hushed.of_frame? hframe ht.hushed
    have hnone := World.cry?_of_hushed hushed
    rw [hframe]
    cases a with
    | throw value => exact ht.throw hnone hs.shape.nested hushed hframe rfl rfl
    | _ =>
      exact ht.quiet (hushed.perform s data rfl) (o := none) (by simp) hnone.symm rfl

theorem after (hs : Sound h.toBooks h.world) (hstacked : Stacked h.world.agenda)
    (m : Move) : Told (h.after m) (acts ++ (h.world.performing? m).toList) := by
  have hsame : ∀ {k : History}, h.world.performing? m = none → k.world.agenda = h.world.agenda →
      k.emitted = h.emitted → Told k (acts ++ (h.world.performing? m).toList) := by
    intro k hnone hagenda hemitted
    rw [hnone, Option.toList_none, List.append_nil]
    exact ht.same hagenda hemitted
  cases m with
  | step => exact ht.step hs
  | act a => exact ht.act hs hstacked a
  | drive =>
    unfold History.after
    dsimp only
    split
    next hempty =>
      rw [List.isEmpty_iff] at hempty
      refine ht.quiet (o := none) (p := none) ?_ (by simp) ?_ rfl
      · simp [Hushed, Duty.complains]
      · simp [World.cry?, World.emitting?, hempty]
    next => exact hsame rfl rfl rfl
  | create o => exact hsame rfl (World.agenda_create _ o) rfl
  | post | succeed | fail =>
    unfold History.after
    dsimp only
    split <;> exact hsame rfl rfl rfl
  | fault | closeLoop => exact hsame rfl rfl rfl

end Told

/-! ## Scripts that end where they would throw -/

mutual

/-- An act whose scripts end where they would throw. -/
def Act.calm : Act → Act
  | .replace slot script => .replace slot (calmScript script)
  | .whenData data script => .whenData data (calmScript script)
  | a => a

/-- A script that ends where it would throw. -/
def calmScript : List Act → List Act
  | [] => []
  | a :: more => if a.throws then [] else a.calm :: calmScript more

end

/-- Handlers that end where they would throw. -/
def Handlers.calm (x : Handlers) : Handlers where
  onOpen := x.onOpen.map calmScript
  onMessage := x.onMessage.map calmScript
  onError := x.onError.map calmScript
  onClose := x.onClose.map calmScript

/-- A socket with such handlers. -/
def calm (x : Socket) : Socket := { x with handlers := x.handlers.calm }

/-- A task that brings such handlers. -/
def Task.calm : Task → Task
  | .handle s slot script => .handle s slot (script.map calmScript)
  | t => t

/-- A loop with such tasks. -/
def calmLoop (l : Loop Task) : Loop Task := { l with queue := l.queue.map Task.calm }

/-- The consumer is told of a thrown value: its handler is called next, or being executed. -/
def complaining : List Duty → Bool
  | .act _ _ _ :: rest => complaining rest
  | .leave _ event :: _ => event.complains
  | .emit _ event :: _ => event.complains
  | _ => false

/-- What is left to do where scripts end without a throw and nobody is told of thrown values. -/
def calmDuties : List Duty → List Duty
  | [] => []
  | .emit s event :: rest =>
    if event.complains then calmDuties rest else .emit s event :: calmDuties rest
  | .leave s event :: rest =>
    if event.complains then calmDuties rest else .leave s event :: calmDuties rest
  | .act s data a :: rest =>
    if complaining rest then calmDuties rest
    else if a.throws then (calmDuties rest).dropWhile Duty.isAct
    else .act s data a.calm :: calmDuties rest
  | .run ran inside :: rest => .run ran inside :: calmDuties rest
  | .dispatch s messages :: rest => .dispatch s messages :: calmDuties rest
  | .resume s :: rest => .resume s :: calmDuties rest
  | .begin s :: rest => .begin s :: calmDuties rest
  | .closeIfClosing s :: rest => .closeIfClosing s :: calmDuties rest

theorem Handlers.get_calm (x : Handlers) (slot : Slot) :
    x.calm.get slot = (x.get slot).map calmScript := by
  cases slot <;> rfl

theorem Handlers.set_calm (x : Handlers) (slot : Slot) (script : Option Script) :
    x.calm.set slot (script.map calmScript) = (x.set slot script).calm := by
  cases slot <;> rfl

theorem post_calmLoop (l : Loop Task) (t : Task) :
    (calmLoop l).post t.calm = (calmLoop (l.post t).1, (l.post t).2) := by
  cases hclosed : l.closed <;> simp [Loop.post, calmLoop, hclosed]

theorem next?_calmLoop (l : Loop Task) :
    (calmLoop l).next? = l.next?.map fun next => (next.1.calm, calmLoop next.2) := by
  cases hclosed : l.closed <;> cases hqueue : l.queue <;>
    simp [Loop.next?, calmLoop, hclosed, hqueue]

theorem map_calm_modify {sockets : List Socket} {f g : Socket → Socket} (s : Nat)
    (h : ∀ x, g (calm x) = calm (f x)) :
    (sockets.map calm).modify s g = (sockets.modify s f).map calm := by
  apply List.ext_getElem?
  intro i
  rw [List.getElem?_modify, List.getElem?_map, List.getElem?_map, List.getElem?_modify]
  cases sockets[i]? with
  | none => rfl
  | some x =>
    by_cases hi : s = i
    · simp [hi, h]
    · simp [hi]

theorem Plain.calm {f : Socket → Socket} (hf : Plain f) (x : Socket) :
    f (Socket.calm x) = Socket.calm (f x) :=
  calc f (Socket.calm x)
    _ = { f x with handlers := x.handlers.calm, inflight := x.inflight } :=
        hf x x.handlers.calm x.inflight
    _ = { f x with handlers := (f x).handlers.calm, inflight := (f x).inflight } := by
        rw [hf.handlers, hf.inflight]
    _ = Socket.calm (f x) := rfl

/-! ## Agendas of both runs -/

theorem calmDuties_jobs {s : Nat} {jobs : List Job} (hjobs : ∀ j ∈ jobs, j.complains = false)
    (rest : List Duty) :
    calmDuties (jobs.map (Job.duty s) ++ rest) = jobs.map (Job.duty s) ++ calmDuties rest := by
  induction jobs with
  | nil => rfl
  | cons j more ih =>
    obtain ⟨hj, hmore⟩ := List.forall_mem_cons.1 hjobs
    replace hmore := ih hmore
    cases j with
    | emit event =>
      have hevent : event.complains = false := hj
      simp only [List.map_cons, List.cons_append, Job.duty, calmDuties, hevent, hmore]
      rfl
    | _ =>
      simp only [List.map_cons, List.cons_append, Job.duty, calmDuties, hmore]

theorem complaining_acts {acts rest : List Duty} (hacts : ∀ d ∈ acts, d.isAct = true) :
    complaining (acts ++ rest) = complaining rest := by
  induction acts with
  | nil => rfl
  | cons d more ih =>
    obtain ⟨hd, hmore⟩ := List.forall_mem_cons.1 hacts
    obtain ⟨r, data, a, rfl⟩ := Duty.eq_act hd
    exact ih hmore

theorem complaining_of_frame? {agenda : List Duty} {s : Nat} {event : Event}
    (h : frame? agenda = some (s, event)) : complaining agenda = event.complains := by
  induction agenda with
  | nil => cases h
  | cons d rest ih =>
    cases d with
    | act => exact ih h
    | leave r e =>
      cases h
      rfl
    | _ => cases h

theorem World.complaining_of_performing? {w : World} {p : Nat × Event × Act} (h : w.performing? .step = some p) :
    complaining w.agenda = p.2.1.complains := by
  unfold World.performing? at h
  dsimp only at h
  split at h
  next hagenda =>
    obtain ⟨frame, hframe, rfl⟩ := Option.map_eq_some_iff.1 h
    rw [hagenda]
    exact complaining_of_frame? hframe
  next => cases h

theorem frame?_dropWhile (agenda : List Duty) : frame? (agenda.dropWhile Duty.isAct) = frame? agenda := by
  induction agenda with
  | nil => rfl
  | cons d rest ih =>
    cases d with
    | act => exact ih
    | _ => rfl

/-- Both runs execute the same handler. -/
theorem frame?_calmDuties {agenda : List Duty} (h : complaining agenda = false) :
    frame? (calmDuties agenda) = frame? agenda := by
  induction agenda with
  | nil => rfl
  | cons d rest ih =>
    cases d with
    | act s data a =>
      have hinside : complaining rest = false := h
      simp only [calmDuties, hinside, Bool.false_eq_true, if_false]
      split
      · rw [frame?_dropWhile]
        exact ih hinside
      · exact ih hinside
    | leave s event | emit s event =>
      have hevent : event.complains = false := h
      simp only [calmDuties, hevent]
      rfl
    | _ => rfl

theorem mem_calmDuties {agenda : List Duty} {ran : Nat} {inside : Option Nat}
    (h : Duty.run ran inside ∈ agenda) : Duty.run ran inside ∈ calmDuties agenda := by
  induction agenda with
  | nil => cases h
  | cons d rest ih =>
    have hdrop : ∀ {l : List Duty}, Duty.run ran inside ∈ l →
        Duty.run ran inside ∈ l.dropWhile Duty.isAct := by
      intro l hl
      rw [← List.takeWhile_append_dropWhile (p := Duty.isAct) (l := l), List.mem_append] at hl
      rcases hl with hl | hl
      · cases List.mem_takeWhile_imp hl
      · exact hl
    rcases List.mem_cons.1 h with rfl | h
    · exact List.mem_cons_self
    · have hrest := ih h
      cases d with
      | act s data a =>
        simp only [calmDuties]
        split
        · exact hrest
        · split
          · exact hdrop hrest
          · exact List.mem_cons_of_mem _ hrest
      | emit | leave =>
        simp only [calmDuties]
        split
        · exact hrest
        · exact List.mem_cons_of_mem _ hrest
      | _ => exact List.mem_cons_of_mem _ hrest

/-- A handler that is told of a thrown value is not there. -/
theorem calmDuties_of_complains {acts rest : List Duty}
    (hacts : ∀ d ∈ acts, d.isAct = true) {s : Nat} {event : Event}
    (hevent : event.complains = true) :
    calmDuties (acts ++ .leave s event :: rest) = calmDuties rest := by
  induction acts with
  | nil => simp only [List.nil_append, calmDuties, hevent, if_true]
  | cons d more ih =>
    obtain ⟨hd, hmore⟩ := List.forall_mem_cons.1 hacts
    obtain ⟨r, data, a, rfl⟩ := Duty.eq_act hd
    have hinside : complaining (more ++ .leave s event :: rest) = true := by
      rw [complaining_acts hmore]
      exact hevent
    simp only [List.cons_append, calmDuties, hinside, if_true, ih hmore]

/-- A handler that throws is at its end. -/
theorem calmDuties_dropWhile {acts rest : List Duty}
    (hacts : ∀ d ∈ acts, d.isAct = true) {s : Nat} {event : Event}
    (hevent : event.complains = false) :
    (calmDuties (acts ++ .leave s event :: rest)).dropWhile Duty.isAct =
      .leave s event :: calmDuties rest := by
  induction acts with
  | nil =>
    simp only [List.nil_append, calmDuties, hevent]
    rfl
  | cons d more ih =>
    obtain ⟨hd, hmore⟩ := List.forall_mem_cons.1 hacts
    obtain ⟨r, data, a, rfl⟩ := Duty.eq_act hd
    have hinside : complaining (more ++ .leave s event :: rest) = false := by
      rw [complaining_acts hmore]
      exact hevent
    simp only [List.cons_append, calmDuties, hinside, Bool.false_eq_true, if_false]
    split
    · rw [ih hmore]
      rfl
    · rw [List.dropWhile_cons_of_pos rfl, ih hmore]

/-- A handler with its script. -/
theorem calmDuties_handler (s : Nat) (data : String) (script : Script) {event : Event}
    (hevent : event.complains = false) (rest : List Duty) :
    calmDuties (script.map (.act s data) ++ .leave s event :: rest) =
      (calmScript script).map (.act s data) ++ .leave s event :: calmDuties rest := by
  have hacts : ∀ more : Script, ∀ d ∈ more.map (Duty.act s data), d.isAct = true := by simp [Duty.isAct]
  induction script with
  | nil =>
    simp only [List.map_nil, List.nil_append, calmDuties, hevent]
    rfl
  | cons a more ih =>
    have hinside : complaining (more.map (Duty.act s data) ++ .leave s event :: rest) = false := by
      rw [complaining_acts (hacts more)]
      exact hevent
    simp only [List.map_cons, List.cons_append, calmDuties, hinside, Bool.false_eq_true, if_false,
      calmScript]
    split
    · exact calmDuties_dropWhile (hacts more) hevent
    · rw [ih]
      rfl

/-! ## Worlds of both runs -/

/-- World `v` is world `w` where scripts end without a throw and nobody is told of thrown values. -/
structure Calm (w v : World) : Prop where
  loop : v.loop = calmLoop w.loop
  sockets : v.sockets = w.sockets.map calm
  calls : v.calls = w.calls
  agenda : v.agenda = calmDuties w.agenda
  fault : v.fault = w.fault

namespace Calm

variable {event : Event} {s : Nat}

variable {w v : World}

theorem socket (h : Calm w v) (s : Nat) : v.socket s = Socket.calm (w.socket s) := by
  unfold World.socket
  rw [h.sockets]
  exact List.getD_map w.sockets {} Socket.calm

theorem update (h : Calm w v) (s : Nat) {f g : Socket → Socket}
    (hf : ∀ x, g (Socket.calm x) = Socket.calm (f x)) : Calm (w.update s f) (v.update s g) where
  __ := h
  sockets := by
    show v.sockets.modify s g = (w.sockets.modify s f).map Socket.calm
    rw [h.sockets]
    exact map_calm_modify s hf

theorem note (h : Calm w v) (n n' : Note) : Calm (w.note n) (v.note n') := { h with }

theorem push (h : Calm w v) {duties duties' : List Duty}
    (hduties : calmDuties (duties ++ w.agenda) = duties' ++ calmDuties w.agenda) :
    Calm (w.push duties) (v.push duties') where
  __ := h
  agenda := by
    show duties' ++ v.agenda = calmDuties (duties ++ w.agenda)
    rw [hduties, h.agenda]

theorem abort (h : Calm w v) (c : Nat) : Calm (w.abort c) (v.abort c) := by
  rw [w.abort_eq, v.abort_eq]
  exact { h with calls := by rw [h.calls] }

/-- A socket is alike in both runs. -/
theorem likeness (s : Nat) : Likeness Calm s s where
  view h := ⟨_, _, h.socket s⟩
  unmarked h := by
    rw [h.socket s]
    rfl
  update h _ hf := h.update s hf.calm
  unmark h := h.update s fun _ => rfl
  fault h := h.fault
  log h _ _ _ := h.note _ _
  push h _ hjobs := h.push (calmDuties_jobs hjobs _)
  issue {w v} h body batch := by
    have hfresh : v.fresh s body batch = w.fresh s body batch := by
      unfold World.fresh
      rw [h.socket s]
      rfl
    have hcalls : Calm { w with calls := w.calls ++ [w.fresh s body batch] }
        { v with calls := v.calls ++ [v.fresh s body batch] } :=
      ⟨h.loop, h.sockets, by rw [h.calls, hfresh], h.agenda, h.fault⟩
    have hmark := hcalls.update s (f := fun x => { x with inflight := some w.calls.length })
      (g := fun x => { x with inflight := some v.calls.length }) fun x => by rw [h.calls]; rfl
    exact hmark.note _ _
  release {w v} h := by
    have hsame : (v.socket s).inflight = (w.socket s).inflight := by
      rw [h.socket s]
      rfl
    cases hmark : (w.socket s).inflight with
    | none =>
      rw [World.release_of_none hmark, World.release_of_none (hsame.trans hmark)]
      exact h
    | some c =>
      rw [World.release_of_some hmark, World.release_of_some (hsame.trans hmark)]
      exact (h.abort _).update s fun _ => rfl

variable (h : Calm w v)
include h

theorem execute (t : Task) : Calm (w.execute t) (v.execute t.calm) := by
  cases hhost : t.host? w with
  | none =>
    have hhost' : t.calm.host? v = none := by
      cases t with
      | succeed | fail => simpa only [Task.calm, Task.host?, h.calls] using hhost
      | _ => cases hhost
    rw [World.execute_of_host?_none hhost, World.execute_of_host?_none hhost']
    exact h
  | some s =>
    cases t with
    | handle r slot script =>
      apply h.update r
      intro x
      show { x with handlers := x.handlers.calm.set slot (script.map calmScript) } = _
      rw [Handlers.set_calm]
      rfl
    | _ =>
      exact (likeness s).execute h (.of_host? h.calls hhost (by simp))

theorem post (t : Task) : Calm (w.post t).1 (v.post t.calm).1 := by
  refine ⟨?_, h.sockets, h.calls, h.agenda, h.fault⟩
  show (v.loop.post t.calm).1 = calmLoop (w.loop.post t).1
  rw [h.loop, post_calmLoop]

theorem postOr (t : Task) (refused : Failure → Note) : Calm (w.postOr t refused) (v.postOr t.calm refused) := by
  have haccepted : (v.post t.calm).2 = (w.post t).2 := by
    show (v.loop.post t.calm).2 = (w.loop.post t).2
    rw [h.loop, post_calmLoop]
  unfold World.postOr
  dsimp only
  rw [haccepted]
  split
  · exact h.post t
  · exact (h.post t).note _ _

theorem perform (s : Nat) (data : String) {a : Act} (hthrows : a.throws = false)
    (hplain : a.conditional = false) : Calm (w.perform s data a) (v.perform s data a.calm) := by
  cases a with
  | send text echo => exact h.postOr (.send s _) _
  | close => exact h.postOr (.close s) _
  | closeWhenDrained => exact h.postOr (.closeWhenDrained s) _
  | closeLoop => exact ⟨rfl, h.sockets, h.calls, h.agenda, h.fault⟩
  | throw value => cases hthrows
  | replace slot script => exact h.post (.handle s slot (some script))
  | remove slot => exact h.post (.handle s slot none)
  | whenData expected script => cases hplain
  | runLoop => exact h.push rfl
  | report => exact h.note _ _

/-- The agenda is replaced by one that is the same to the other run. -/
theorem replan {u : World} (hu : u = { w with agenda := u.agenda, journal := u.journal })
    (hagenda : calmDuties u.agenda = calmDuties w.agenda) : Calm u v := by
  rw [hu]
  exact ⟨h.loop, h.sockets, h.calls, h.agenda.trans hagenda.symm, h.fault⟩

/-- The handler that is told of a thrown value throws itself: this is only recorded. -/
theorem throw_of_complains (hnested : Nested w.agenda)
    (hframe : frame? w.agenda = some (s, event)) (hevent : event.complains = true) (value : Thrown) :
    Calm (w.throw value) v := by
  obtain ⟨acts, rest, journal, hagenda, hacts, hthrow⟩ := World.throw_eq hnested hframe value
  have hsilent : event.cry? s value = none := by
    cases event with
    | error => rfl
    | _ => cases hevent
  rw [hthrow]
  refine h.replan rfl ?_
  show calmDuties ((event.cry? s value).toList.map _ ++ rest) = _
  rw [hsilent, hagenda, calmDuties_of_complains hacts hevent]
  rfl

/-- While the consumer is told of a thrown value the other run waits. -/
theorem step_of_complaining (hnested : Nested w.agenda) (hcomplaining : complaining w.agenda = true)
    (hnoop : ∀ s data a rest, w.agenda = .act s data a :: rest → a.isNoOp = true) :
    Calm w.step v := by
  unfold World.step
  cases hagenda : w.agenda with
  | nil => exact h
  | cons d rest =>
    rw [hagenda] at hcomplaining hnested
    -- the first duty is nothing to the other run
    have hpopped : calmDuties (d :: rest) = calmDuties rest →
        Calm ({ w with agenda := rest } : World) v := by
      intro hduties
      refine h.replan rfl ?_
      show calmDuties rest = calmDuties w.agenda
      rw [hagenda, hduties]
    cases d with
    | emit s event =>
      have hevent : event.complains = true := hcomplaining
      have hrest := hpopped (by simp only [calmDuties, hevent, if_true])
      dsimp only [World.discharge, World.emit]
      split
      · exact hrest
      next script _ =>
        refine hrest.replan rfl ?_
        show calmDuties ((script.map (.act s event.data) ++ [.leave s event]) ++ rest) = _
        rw [List.append_assoc, List.singleton_append, calmDuties_of_complains (by simp [Duty.isAct]) hevent]
    | leave s event =>
      have hevent : event.complains = true := hcomplaining
      exact hpopped (by simp only [calmDuties, hevent, if_true])
    | act s data a =>
      have hinside : complaining rest = true := hcomplaining
      have hrest := hpopped (by simp only [calmDuties, hinside, if_true])
      cases a with
      | report => exact hrest.replan rfl rfl
      | throw value =>
        obtain ⟨r, event, hframe⟩ := frame?_of_inside hnested.1 hnested.2
        refine hrest.throw_of_complains hnested.2 hframe ?_ value
        rw [← complaining_of_frame? hframe]
        exact hinside
      | _ =>
        cases hnoop s data _ rest hagenda
    | _ => cases hcomplaining

theorem emit (s : Nat) (hevent : event.complains = false) : Calm (w.emit s event) (v.emit s event) := by
  have hsame : (v.socket s).handlers.get event.slot =
      ((w.socket s).handlers.get event.slot).map calmScript := by
    rw [h.socket s]
    exact Handlers.get_calm _ _
  cases hget : (w.socket s).handlers.get event.slot with
  | none =>
    rw [hget] at hsame
    rw [World.emit_of_none hget, World.emit_of_none hsame]
    exact h
  | some script =>
    rw [hget] at hsame
    rw [World.emit_of_some hget, World.emit_of_some hsame]
    apply (h.note _ _).push
    show calmDuties ((script.map (.act s event.data) ++ [.leave s event]) ++ w.agenda) = _
    rw [List.append_assoc, List.singleton_append, calmDuties_handler s _ script hevent,
      List.append_assoc, List.singleton_append]
    rfl

/-- Otherwise both runs do the same. -/
theorem step (hnested : Nested w.agenda) (hcalm : complaining w.agenda = false)
    (hplain : ∀ s data a rest, w.agenda = .act s data a :: rest → a.conditional = false) :
    Calm w.step v.step := by
  cases hagenda : w.agenda with
  | nil =>
    have hv : v.agenda = [] := by rw [h.agenda, hagenda]; rfl
    simp only [World.step, hagenda, hv]
    exact h
  | cons d rest =>
    have hv := h.agenda
    rw [hagenda] at hcalm hnested hv
    have hbelow : Calm { w with agenda := rest } { v with agenda := calmDuties rest } :=
      ⟨h.loop, h.sockets, h.calls, rfl, h.fault⟩
    rw [World.step_of_cons hagenda]
    cases d using Duty.byJobs with
    | run ran inside =>
      rw [World.step_of_cons hv]
      have hnext : v.loop.next? = w.loop.next?.map fun next => (next.1.calm, calmLoop next.2) := by
        rw [h.loop, next?_calmLoop]
      dsimp only [World.discharge]
      rw [hnext]
      cases w.loop.next? with
      | none => cases inside <;> exact ⟨h.loop, h.sockets, h.calls, rfl, h.fault⟩
      | some next =>
        obtain ⟨t, loop⟩ := next
        have htaken : Calm ({ w with agenda := rest, loop } : World)
            { v with agenda := calmDuties rest, loop := calmLoop loop } :=
          ⟨rfl, h.sockets, h.calls, rfl, h.fault⟩
        have hagain : Calm (({ w with agenda := rest, loop } : World).push [.run (ran + 1) inside])
            (({ v with agenda := calmDuties rest, loop := calmLoop loop } : World).push
              [.run (ran + 1) inside]) := htaken.push rfl
        exact hagain.execute t
    | leave s event =>
      have hevent : event.complains = false := hcalm
      simp only [calmDuties, hevent, Bool.false_eq_true] at hv
      rw [World.step_of_cons hv]
      exact hbelow
    | act s data a =>
      have hinside : complaining rest = false := hcalm
      simp only [calmDuties, hinside, Bool.false_eq_true] at hv
      cases hthrows : a.throws with
      | false =>
        rw [hthrows] at hv
        rw [World.step_of_cons hv]
        exact hbelow.perform s data hthrows (hplain s data a rest hagenda)
      | true =>
        -- the handler ends by the throw here, and by itself there
        obtain ⟨value, rfl⟩ : ∃ value, a = .throw value := by
          cases a with
          | throw value => exact ⟨value, rfl⟩
          | _ => cases hthrows
        obtain ⟨r, event, hframe⟩ := frame?_of_inside hnested.1 hnested.2
        obtain ⟨acts, below, journal, hrest, hacts, hthrow⟩ :=
          World.throw_eq (w := { w with agenda := rest }) hnested.2 hframe value
        have hrest : rest = acts ++ .leave r event :: below := hrest
        have hevent : event.complains = false := by
          rw [hrest, complaining_acts hacts] at hinside
          exact hinside
        rw [hthrows, hrest, calmDuties_dropWhile hacts hevent] at hv
        rw [World.step_of_cons hv]
        show Calm (({ w with agenda := rest } : World).throw value) _
        rw [hthrow]
        refine ⟨h.loop, h.sockets, h.calls, ?_, h.fault⟩
        show calmDuties below = calmDuties ((event.cry? r value).toList.map _ ++ below)
        cases event <;> rfl
    | job s j =>
      cases j with
      | emit event =>
        have hevent : event.complains = false := hcalm
        simp only [Job.duty, calmDuties, hevent, Bool.false_eq_true] at hv
        rw [World.step_of_cons hv]
        exact hbelow.emit s hevent
      | _ =>
        rw [World.step_of_cons hv]
        exact (likeness s).discharge hbelow rfl

/-- The handler that is being executed has the same socket and the same data in both runs. -/
theorem handler? (hstacked : Stacked w.agenda) (hnested : Nested w.agenda)
    (hcalm : complaining w.agenda = false) {data : String}
    (hw : w.handler? = some (s, data)) : v.handler? = some (s, data) := by
  obtain ⟨event, hframe, rfl⟩ := frame?_of_handler hstacked hnested hw
  have hevent : event.complains = false := by rw [← complaining_of_frame? hframe, hcalm]
  obtain ⟨acts, rest, hagenda, hacts, -⟩ := unwind_of_frame? hnested hframe
  have hv := h.agenda
  rw [hagenda] at hv hcalm
  unfold World.handler? at hw ⊢
  rw [hagenda] at hw
  cases acts with
  | nil =>
    simp only [List.nil_append, calmDuties, hevent, Bool.false_eq_true, if_false] at hv
    rw [hv]
  | cons d more =>
    obtain ⟨hd, hmore⟩ := List.forall_mem_cons.1 hacts
    obtain ⟨r, data, a, rfl⟩ := Duty.eq_act hd
    have hinside : complaining (more ++ .leave s event :: rest) = false := hcalm
    simp only [List.cons_append, calmDuties, hinside, Bool.false_eq_true, if_false] at hv
    rw [hv]
    cases a.throws with
    | true =>
      rw [if_pos rfl, calmDuties_dropWhile hmore hevent]
    | false =>
      exact hw

/-- Both runs have duties, or none has. -/
theorem isEmpty_agenda (hgrounded : Grounded w.agenda) : v.agenda.isEmpty = w.agenda.isEmpty := by
  rw [Bool.eq_iff_iff, List.isEmpty_iff, List.isEmpty_iff]
  constructor
  · intro hv
    by_contra hne
    obtain ⟨ran, hran⟩ := hgrounded.mem hne
    have hmem := mem_calmDuties hran
    rw [← h.agenda, hv] at hmem
    cases hmem
  · intro hw
    rw [h.agenda, hw]
    rfl

/-- A handler at its end throws here, and ends there. -/
theorem throw {rest : List Duty} (hagenda : w.agenda = .leave s event :: rest)
    (hevent : event.complains = false) (value : Thrown) : Calm (w.throw value) v.step := by
  have hv := h.agenda
  rw [hagenda] at hv
  simp only [calmDuties, hevent, Bool.false_eq_true] at hv
  have hstep : v.step = { v with agenda := calmDuties rest } := World.step_of_cons hv
  have hthrow : calmDuties (w.throw value).agenda = calmDuties rest := by
    simp only [World.throw, hagenda]
    cases event <;> rfl
  have hkept : w.throw value =
      { w with agenda := (w.throw value).agenda, journal := (w.throw value).journal } := by
    simp only [World.throw, hagenda]
    cases event <;> rfl
  rw [hstep]
  have hrest : Calm ({ w with agenda := rest } : World) { v with agenda := calmDuties rest } :=
    ⟨h.loop, h.sockets, h.calls, rfl, h.fault⟩
  exact hrest.replan hkept hthrow

end Calm

/-! ## Both runs -/

/-- Options with handlers that end where they would throw. -/
def Options.calm (o : Options) : Options := { o with handlers := o.handlers.calm }

/-- An operation that brings such handlers. -/
def Operation.calm : Operation → Operation
  | .handle slot script => .handle slot (script.map calmScript)
  | op => op

/-- What the run without throws does for a move of the other: nothing while the consumer is told of a
thrown value, the end of a handler for its throw, and the same otherwise. -/
def World.calmMoves (w : World) : Move → List Move
  | .step => if complaining w.agenda then [] else [.step]
  | .act a =>
    if complaining w.agenda || (frame? w.agenda).isNone then []
    else if a.throws then [.step]
    else [.act a.calm]
  | .create o => [.create o.calm]
  | .post s op => [.post s op.calm]
  | m => [m]

/-- The run in which the same scripts end where they would throw. -/
def calmed : History → List Move → List Move
  | _, [] => []
  | h, m :: more => h.world.calmMoves m ++ calmed (h.after m) more

/-- An act that is not part of the script comes after it. -/
def World.ends (w : World) : Move → Bool
  | .act _ =>
    match w.agenda with
    | .leave _ _ :: _ => true
    | _ => false
  | _ => true

/-- A throw is the end of a script that does not look at data, and the handler that is told of a thrown
value does nothing to the socket. -/
def World.tame (w : World) (m : Move) : Bool :=
  (w.performing? m).all fun p =>
    !p.2.2.conditional && (!p.2.1.complains || p.2.2.isNoOp) && (!p.2.2.throws || w.ends m)

/-- All moves are of that kind. -/
def tame : History → List Move → Bool
  | _, [] => true
  | h, m :: more => h.world.tame m && tame (h.after m) more

/-- The occasion is not that a value was thrown. -/
def ordinary (o : Nat × Event) : Bool := !o.2.complains

/-- An act of the run without throws is one of the other run: it throws nothing, and belongs to a handler
that is not called because of a throw. -/
def calmAct? (p : Nat × Event × Act) : Option (Nat × Event × Act) :=
  if p.2.1.complains || p.2.2.throws then none else some (p.1, p.2.1, p.2.2.calm)

/-- History `k` is history `h` without throws. -/
structure Parallel (h k : History) : Prop where
  world : Calm h.world k.world
  emitted : k.emitted = h.emitted.filter ordinary
  callbacks : k.world.callbacks = h.world.callbacks.filter ordinary

theorem Operation.task_calm (op : Operation) (s : Nat) : op.calm.task s = (op.task s).calm := by
  cases op <;> rfl

theorem Calm.attends {w v : World} (h : Calm w v) (o : Nat × Event) : v.attends o = w.attends o := by
  unfold World.attends
  rw [h.socket o.1]
  show ((w.socket o.1).handlers.calm.get o.2.slot).isSome = _
  rw [Handlers.get_calm, Option.isSome_map]

theorem Calm.create {w v : World} (h : Calm w v) (o : Options) : Calm (w.create o) (v.create o.calm) := by
  have hlength : v.sockets.length = w.sockets.length := by rw [h.sockets, List.length_map]
  have hsockets : v.sockets ++ [o.calm.socket] = (w.sockets ++ [o.socket]).map Socket.calm := by
    rw [h.sockets, List.map_append]
    rfl
  have hadded : Calm (w.addSocket o.socket) (v.addSocket o.calm.socket) :=
    ⟨h.loop, hsockets, h.calls, h.agenda, h.fault⟩
  have hposted := hadded.post (.establish w.sockets.length)
  have haccepted : ((v.addSocket o.calm.socket).post (.establish w.sockets.length)).2 =
      ((w.addSocket o.socket).post (.establish w.sockets.length)).2 := by
    show (v.loop.post (Task.establish w.sockets.length).calm).2 = _
    rw [h.loop, post_calmLoop]
    rfl
  rw [World.create_eq, World.create_eq, hlength, haccepted]
  split
  · exact hposted
  · exact hposted.note _ _

theorem Calm.answer {w v : World} (h : Calm w v) (c : Nat) (t : Task) :
    Calm (w.answer c t).1 (v.answer c t.calm).1 := by
  have hmarked : Calm { w with calls := w.calls.modify c fun x => { x with answered := true } }
      { v with calls := v.calls.modify c fun x => { x with answered := true } } :=
    ⟨h.loop, h.sockets, by rw [h.calls], h.agenda, h.fault⟩
  exact hmarked.post t

theorem World.emitting?_of_frame? {w : World} {s : Nat} {event : Event}
    (h : frame? w.agenda = some (s, event)) : w.emitting? = none := by
  unfold World.emitting?
  cases hagenda : w.agenda with
  | nil => rfl
  | cons d rest =>
    rw [hagenda] at h
    cases d with
    | emit => cases h
    | _ => rfl

/-- Unless a thrown value is told of, both runs call the consumer. -/
theorem Calm.emitting? {w v : World} (h : Calm w v) (hnested : Nested w.agenda)
    (hcalm : complaining w.agenda = false) :
    v.emitting? = w.emitting? ∧ ∀ o ∈ w.emitting?, ordinary o = true := by
  have hv := h.agenda
  have hframe := frame?_calmDuties hcalm
  rw [← hv] at hframe
  -- inside a handler nobody is called in either run
  have hinside : insideHandler w.agenda = true → v.emitting? = w.emitting? ∧
      ∀ o ∈ w.emitting?, ordinary o = true := by
    intro hin
    obtain ⟨s, event, hw⟩ := frame?_of_inside hin hnested
    rw [World.emitting?_of_frame? hw, World.emitting?_of_frame? (hframe.trans hw)]
    simp
  cases hagenda : w.agenda with
  | nil =>
    simp [World.emitting?, hagenda, hv, calmDuties]
  | cons d rest =>
    rw [hagenda] at hv hcalm hinside
    cases d with
    | emit s event =>
      have hevent : event.complains = false := hcalm
      simp only [calmDuties, hevent, Bool.false_eq_true] at hv
      simp [World.emitting?, hagenda, hv, ordinary, hevent]
    | act | leave => exact hinside rfl
    | _ =>
      simp [World.emitting?, hagenda, hv, calmDuties]

namespace Parallel

variable {h k : History}

variable (hp : Parallel h k)
include hp

/-- Moves that call nobody. -/
theorem same {w v : World} (hworld : Calm w v) (hw : w.callbacks = h.world.callbacks)
    (hv : v.callbacks = k.world.callbacks) : Parallel { h with world := w } { k with world := v } :=
  ⟨hworld, hp.emitted, by rw [hw, hv, hp.callbacks]⟩

/-- A step of the run with throws, and what the other makes of it, if both call the same handlers. -/
theorem pass {k' : History} (hworld : Calm h.world.step k'.world)
    {due : Option (Nat × Event)} (hdue : h.world.emitting?.filter ordinary = due)
    (hemitted : k'.emitted = k.emitted ++ due.toList)
    (hcalled : k'.world.callbacks = k.world.callbacks ++ (due.filter h.world.attends).toList) :
    Parallel h.step k' := by
  refine ⟨hworld, ?_, ?_⟩
  · rw [hemitted, h.emitted_step, List.filter_append, ← hdue, hp.emitted, Option.toList_filter]
  · show _ = h.world.step.callbacks.filter ordinary
    rw [hcalled, h.world.callbacks_step, List.filter_append, ← hdue, hp.callbacks, Option.toList_filter,
      Option.toList_filter, Option.toList_filter, List.filter_filter, List.filter_filter]
    simp only [Bool.and_comm]

/-- A step while the consumer is told of a thrown value. -/
theorem wait (hcomplaining : complaining h.world.agenda = true)
    (hworld : Calm h.world.step k.world) : Parallel h.step k := by
  -- who is called at most is told of a thrown value
  have hnone : h.world.emitting?.filter ordinary = none := by
    unfold World.emitting?
    cases hagenda : h.world.agenda with
    | nil => rfl
    | cons d rest =>
      rw [hagenda] at hcomplaining
      cases d with
      | emit s event =>
        have hevent : event.complains = true := hcomplaining
        simp [ordinary, hevent]
      | _ => rfl
  exact hp.pass hworld hnone (List.append_nil _).symm (List.append_nil _).symm

/-- A step of both runs. -/
theorem step (hnested : Nested h.world.agenda)
    (hcalm : complaining h.world.agenda = false) (hworld : Calm h.world.step k.world.step) :
    Parallel h.step k.step := by
  obtain ⟨hsame, hordinary⟩ := hp.world.emitting? hnested hcalm
  have hcalled := k.world.callbacks_step
  rw [show k.world.attends = h.world.attends from funext hp.world.attends] at hcalled
  refine hp.pass hworld ?_ k.emitted_step hcalled
  rw [hsame]
  cases hdue : h.world.emitting? with
  | none => rfl
  | some o => exact Option.filter_some_pos (hordinary o hdue)

/-- A handler throws at its end: there it only ends. -/
theorem throw {s : Nat} {event : Event} {rest : List Duty}
    (hagenda : h.world.agenda = .leave s event :: rest) (hevent : event.complains = false)
    (value : Thrown) : Parallel { h with world := h.world.throw value } k.step := by
  have hframe : frame? k.world.agenda = some (s, event) := by
    rw [hp.world.agenda, frame?_calmDuties (by rw [hagenda]; exact hevent), hagenda]
    rfl
  have hnone := World.emitting?_of_frame? hframe
  refine ⟨hp.world.throw hagenda hevent value, ?_, ?_⟩
  · rw [k.emitted_step, hnone, Option.toList_none, List.append_nil, hp.emitted]
  · show k.world.step.callbacks = (h.world.perform s event.data (.throw value)).callbacks.filter ordinary
    rw [k.world.callbacks_step, hnone, Option.filter_none, Option.toList_none, List.append_nil, hp.callbacks,
      World.callbacks_perform]

/-- The acts of a step. -/
theorem performed_step (hnested : Nested h.world.agenda) (hcalm : complaining h.world.agenda = false) :
    (k.world.performing? .step).toList = (h.world.performing? .step).toList.filterMap calmAct? := by
  have hk := hp.world.agenda
  unfold World.performing?
  cases hagenda : h.world.agenda with
  | nil =>
    rw [hagenda] at hk
    rw [hk]
    rfl
  | cons d rest =>
    rw [hagenda] at hk hcalm hnested
    cases d with
    | act s data a =>
      have hinside : complaining rest = false := hcalm
      obtain ⟨r, event, hframe⟩ := frame?_of_inside hnested.1 hnested.2
      have hevent : event.complains = false := by rw [← complaining_of_frame? hframe, hinside]
      simp only [calmDuties, hinside, Bool.false_eq_true] at hk
      cases hthrows : a.throws with
      | true =>
        obtain ⟨acts, below, hrest, hacts, -⟩ := unwind_of_frame? hnested.2 hframe
        rw [hthrows, hrest, calmDuties_dropWhile hacts hevent] at hk
        rw [hk]
        simp [hframe, calmAct?, hthrows]
      | false =>
        rw [hk]
        simp [frame?_calmDuties hinside, hframe, calmAct?, hthrows, hevent]
    | emit s event | leave s event =>
      have hevent : event.complains = false := hcalm
      simp only [calmDuties, hevent, Bool.false_eq_true] at hk
      rw [hk]
      rfl
    | _ =>
      rw [hk]
      rfl

/-- What both runs make of a step. -/
theorem after_step (hnested : Nested h.world.agenda) (htame : h.world.tame .step = true) :
    Parallel h.step ((h.world.calmMoves .step).foldl History.after k) ∧
      performed k (h.world.calmMoves .step) = (h.world.performing? .step).toList.filterMap calmAct? := by
  have hact : ∀ s data a rest, h.world.agenda = .act s data a :: rest →
      a.conditional = false ∧ (complaining h.world.agenda = true → a.isNoOp = true) := by
    intro s data a rest hagenda
    obtain ⟨r, event, -, hperforms⟩ := World.performing?_of_act hnested hagenda
    have hevent := World.complaining_of_performing? hperforms
    simp only [World.tame, hperforms, Option.all_some, Bool.and_eq_true, Bool.not_eq_true'] at htame
    exact ⟨htame.1.1, fun hcomplaining => by simpa [← hevent, hcomplaining] using htame.1.2⟩
  cases hcomplaining : complaining h.world.agenda with
  | true =>
    have hmoves : h.world.calmMoves .step = [] := by simp [World.calmMoves, hcomplaining]
    rw [hmoves]
    constructor
    · apply hp.wait hcomplaining
      apply hp.world.step_of_complaining hnested hcomplaining
      exact fun s data a rest hagenda => (hact s data a rest hagenda).2 hcomplaining
    · -- what is performed belongs to the handler that is told of the throw
      cases hperforms : h.world.performing? .step with
      | none => rfl
      | some p => simp [performed, calmAct?, ← World.complaining_of_performing? hperforms, hcomplaining]
  | false =>
    have hmoves : h.world.calmMoves .step = [.step] := by simp [World.calmMoves, hcomplaining]
    rw [hmoves]
    constructor
    · apply hp.step hnested hcomplaining
      apply hp.world.step hnested hcomplaining
      exact fun s data a rest hagenda => (hact s data a rest hagenda).1
    · simp only [performed, List.append_nil]
      exact hp.performed_step hnested hcomplaining

/-- What both runs make of an act besides the script. -/
theorem act (hs : Sound h.toBooks h.world) (hstacked : Stacked h.world.agenda)
    {a : Act} (htame : h.world.tame (.act a) = true) :
    Parallel (h.after (.act a)) ((h.world.calmMoves (.act a)).foldl History.after k) ∧
      performed k (h.world.calmMoves (.act a)) =
        (h.world.performing? (.act a)).toList.filterMap calmAct? := by
  have hnested := hs.shape.nested
  cases hhandler : h.world.handler? with
  | none =>
    have hframe := frame?_of_handler_none hhandler
    have hmoves : h.world.calmMoves (.act a) = [] := by simp [World.calmMoves, hframe]
    rw [hmoves]
    simp only [History.after, hhandler, World.performing?, hframe]
    exact ⟨hp, rfl⟩
  | some handler =>
    obtain ⟨s, data⟩ := handler
    obtain ⟨event, hframe, -⟩ := frame?_of_handler hstacked hnested hhandler
    have hperforms : h.world.performing? (.act a) = some (s, event, a) := by
      simp only [World.performing?, hframe, Option.map_some]
    have hcomplaining := complaining_of_frame? hframe
    have hworld : h.after (.act a) = { h with world := h.world.perform s data a } := by
      simp only [History.after, hhandler]
    simp only [World.tame, hperforms, Option.all_some, Bool.and_eq_true,
      Bool.not_eq_true'] at htame
    obtain ⟨⟨hplain, hnoop⟩, hends⟩ := htame
    rw [hworld, hperforms]
    cases hevent : event.complains with
    | true =>
      have hmoves : h.world.calmMoves (.act a) = [] := by
        simp [World.calmMoves, hcomplaining, hevent]
      rw [hmoves]
      refine ⟨?_, by simp [performed, calmAct?, hevent]⟩
      have hnoop : a.isNoOp = true := by simpa [hevent] using hnoop
      cases a with
      | report => exact hp.same (hp.world.replan rfl rfl) (World.callbacks_note _ rfl) rfl
      | throw value =>
        exact hp.same (hp.world.throw_of_complains hnested hframe hevent value)
          (h.world.callbacks_perform s data (.throw value)) rfl
      | _ =>
        cases hnoop
    | false =>
      have hcalm : complaining h.world.agenda = false := hcomplaining.trans hevent
      cases hthrows : a.throws with
      | false =>
        have hmoves : h.world.calmMoves (.act a) = [.act a.calm] := by
          simp [World.calmMoves, hcalm, hframe, hthrows]
        have hk := hp.world.handler? hstacked hnested hcalm hhandler
        have hframe' : frame? k.world.agenda = some (s, event) := by
          rw [hp.world.agenda, frame?_calmDuties hcalm, hframe]
        rw [hmoves]
        constructor
        · simp only [List.foldl_cons, History.after, hk]
          exact hp.same (hp.world.perform s data hthrows hplain) (World.callbacks_perform _ _ _ _)
            (World.callbacks_perform _ _ _ _)
        · simp [performed, World.performing?, hframe', calmAct?, hevent, hthrows]
      | true =>
        have hmoves : h.world.calmMoves (.act a) = [.step] := by
          simp [World.calmMoves, hcalm, hframe, hthrows]
        rw [hmoves]
        -- the script is at its end
        obtain ⟨rest, hagenda⟩ : ∃ rest, h.world.agenda = .leave s event :: rest := by
          have hends : h.world.ends (.act a) = true := by simpa [hthrows] using hends
          unfold World.ends at hends
          dsimp only at hends
          split at hends
          next r e rest hagenda =>
            rw [hagenda] at hframe
            cases hframe
            exact ⟨rest, hagenda⟩
          next => cases hends
        have hk : k.world.performing? .step = none := by
          have hduties := hp.world.agenda
          rw [hagenda] at hduties
          simp only [calmDuties, hevent, Bool.false_eq_true, if_false] at hduties
          simp only [World.performing?, hduties]
        cases a with
        | throw value =>
          refine ⟨hp.throw hagenda hevent value, ?_⟩
          simp [performed, hk, calmAct?, hthrows]
        | _ => cases hthrows

/-- What both runs make of a move. -/
theorem after (hs : Sound h.toBooks h.world) (hstacked : Stacked h.world.agenda)
    (hgrounded : Grounded h.world.agenda) {m : Move} (htame : h.world.tame m = true) :
    Parallel (h.after m) ((h.world.calmMoves m).foldl History.after k) ∧
      performed k (h.world.calmMoves m) = (h.world.performing? m).toList.filterMap calmAct? := by
  have hnested := hs.shape.nested
  cases m with
  | step => exact hp.after_step hnested htame
  | act a => exact hp.act hs hstacked htame
  | drive =>
    refine ⟨?_, rfl⟩
    simp only [World.calmMoves, List.foldl_cons, History.after, hp.world.isEmpty_agenda hgrounded]
    split
    · exact hp.same ⟨hp.world.loop, hp.world.sockets, hp.world.calls, rfl, hp.world.fault⟩ rfl rfl
    · exact hp
  | create o => exact ⟨hp.same (hp.world.create o) (h.world.callbacks_create o) (k.world.callbacks_create _), rfl⟩
  | post s op =>
    refine ⟨?_, rfl⟩
    have hlength : k.world.sockets.length = h.world.sockets.length := by
      rw [hp.world.sockets, List.length_map]
    simp only [World.calmMoves, List.foldl_cons, History.after, hlength,
      Operation.task_calm]
    split
    · exact hp.same (hp.world.post _) rfl rfl
    · exact hp
  | succeed c | fail c =>
    refine ⟨?_, rfl⟩
    have hawaits : k.world.awaits c = h.world.awaits c := by
      unfold World.awaits
      rw [hp.world.calls]
    simp only [World.calmMoves, List.foldl_cons, History.after, hawaits]
    split
    · exact hp.same (hp.world.answer c _) rfl rfl
    · exact hp
  | fault cause =>
    exact ⟨hp.same ⟨hp.world.loop, hp.world.sockets, hp.world.calls, hp.world.agenda, rfl⟩ rfl rfl, rfl⟩
  | closeLoop =>
    exact ⟨hp.same ⟨rfl, hp.world.sockets, hp.world.calls, hp.world.agenda, hp.world.fault⟩ rfl rfl, rfl⟩

end Parallel

theorem performed_append (h : History) (front back : List Move) :
    performed h (front ++ back) = performed h front ++ performed (front.foldl History.after h) back := by
  induction front generalizing h with
  | nil => rfl
  | cons m more ih =>
    simp only [List.cons_append, performed, List.foldl_cons, ih, List.append_assoc]

/-- The two runs from histories that are parallel. -/
theorem Parallel.run {h k : History} (hp : Parallel h k) (hs : Sound h.toBooks h.world)
    (hstacked : Stacked h.world.agenda) (hgrounded : Grounded h.world.agenda) {moves : List Move}
    (htame : tame h moves = true) :
    Parallel (moves.foldl History.after h) ((calmed h moves).foldl History.after k) ∧
      performed k (calmed h moves) = (performed h moves).filterMap calmAct? := by
  induction moves generalizing h k with
  | nil => exact ⟨hp, rfl⟩
  | cons m more ih =>
    simp only [tame, Bool.and_eq_true] at htame
    obtain ⟨hafter, hperformed⟩ := hp.after hs hstacked hgrounded htame.1
    obtain ⟨hrest, hperformed'⟩ := ih hafter (sound_after hs m) (stacked_after hs hstacked m)
      (grounded_after hs hgrounded m) htame.2
    constructor
    · rw [calmed, List.foldl_append]
      exact hrest
    · rw [calmed, performed_append, hperformed, hperformed', performed, List.filterMap_append]

theorem told_run (moves : List Move) : Told (History.run moves) (performed {} moves) := by
  induction moves using List.reverseRecOn with
  | nil =>
    constructor
    · simp [History.run, Hushed]
    · rfl
  | append_singleton front m ih =>
    rw [History.run_concat, performed_append]
    have hlast : performed (front.foldl History.after {}) [m] =
        ((History.run front).world.performing? m).toList := by
      simp only [performed, List.append_nil]
      rfl
    rw [hlast]
    exact ih.after (sound_run front) (stacked_run front) m

/-! ## Throws are harmless -/

/-- The occasion is that a handler of socket `s` threw a value. -/
def complainsTo (s : Nat) (o : Nat × Event) : Bool := o.1 = s ∧ o.2.complains = true

/-- A handler of errors that is always there is called for all thrown values. -/
theorem complaints_of_attended (moves : List Move) {s : Nat} (h : Attended moves s .onError) :
    (History.run moves).world.callbacks.filter (complainsTo s) =
      (History.run moves).emitted.filter (complainsTo s) := by
  have hslot : ∀ o : Nat × Event, complainsTo s o = (complainsTo s o && isFor s .onError o) := by
    rintro ⟨r, event⟩
    cases event with
    | error cause => by_cases hr : r = s <;> simp [complainsTo, isFor, Event.slot, hr]
    | _ => simp [complainsTo, Event.complains]
  have hfilter : ∀ l : List (Nat × Event),
      l.filter (complainsTo s) = (l.filter (isFor s .onError)).filter (complainsTo s) := by
    intro l
    rw [List.filter_filter]
    exact List.filter_congr fun o _ => hslot o
  rw [hfilter, callbacks_of_attended moves h, ← hfilter]

/-- What a handler throws ends that handler, and nothing else. -/
theorem contained (moves : List Move) {m : Move} {s : Nat} {event : Event} {value : Thrown}
    (h : (History.run moves).world.performing? m = some (s, event, .throw value)) :
    let w := (History.run moves).world
    let v := ((History.run moves).after m).world
    ∃ acts rest, w.agenda = acts ++ .leave s event :: rest ∧ (∀ d ∈ acts, d.isAct = true) ∧
      v.agenda = (event.cry? s value).toList.map (fun o => .emit o.1 o.2) ++ rest ∧
      v.sockets = w.sockets ∧ v.calls = w.calls ∧ v.loop = w.loop := by
  intro w v
  have hnested : Nested w.agenda := (sound_run moves).shape.nested
  cases m with
  | step =>
    cases hagenda : w.agenda with
    | nil => simp only [World.performing?, show (History.run moves).world.agenda = [] from hagenda,
        reduceCtorEq] at h
    | cons d below =>
      rw [hagenda] at hnested
      simp only [World.performing?, show (History.run moves).world.agenda = d :: below from hagenda] at h
      cases d with
      | act r data a =>
        obtain ⟨⟨s', event'⟩, hframe, hsame⟩ := Option.map_eq_some_iff.1 h
        obtain ⟨rfl, rfl, rfl⟩ := hsame
        obtain ⟨acts, rest, journal, hbelow, hacts, hthrow⟩ :=
          World.throw_eq (w := { w with agenda := below }) hnested.2 hframe value
        have hv : v = _ := (World.step_of_cons hagenda).trans hthrow
        have hbelow : below = acts ++ .leave s' event' :: rest := hbelow
        refine ⟨.act r data (.throw value) :: acts, rest, by rw [hbelow]; rfl,
          List.forall_mem_cons.2 ⟨rfl, hacts⟩, ?_⟩
        rw [hv]
        exact ⟨rfl, rfl, rfl, rfl⟩
      | _ => cases h
  | act a =>
    obtain ⟨⟨s', event'⟩, hframe, hsame⟩ := Option.map_eq_some_iff.1 h
    obtain ⟨rfl, rfl, rfl⟩ := hsame
    cases hhandler : w.handler? with
    | none =>
      rw [frame?_of_handler_none hhandler] at hframe
      cases hframe
    | some handler =>
      obtain ⟨r, data⟩ := handler
      obtain ⟨acts, rest, journal, hagenda, hacts, hthrow⟩ := World.throw_eq hnested hframe value
      have hv : v = w.throw value := by
        show ((History.run moves).after (.act (.throw value))).world = _
        simp only [History.after, show (History.run moves).world.handler? = some (r, data) from hhandler]
        rfl
      refine ⟨acts, rest, hagenda, hacts, ?_⟩
      rw [hv, hthrow]
      exact ⟨rfl, rfl, rfl, rfl⟩
  | _ => cases h

/-- Values that handlers throw never affect a socket. All that is performed is performed by a handler,
and a value that it throws ends this handler only: the rest of its task goes on, and no socket, call or
task changes. The consumer is told of the values that its handlers of the open and of messages throw, of
each once, with the name of the handler and the value, and of no others. If a throw is the end of its
script and the handler that is told of it does nothing to the socket, the run in which the same scripts
end without the throw issues and aborts the same calls, has the same states, sessions and queues, and
calls the same other handlers. -/
theorem throws_harmless (moves : List Move) :
    let h := History.run moves
    let thrown := (performed {} moves).filterMap cry?
    (∀ s data a rest, h.world.agenda = .act s data a :: rest →
      ∃ event, h.world.performing? .step = some (s, event, a)) ∧
    (∀ m s event value, h.world.performing? m = some (s, event, .throw value) →
      let v := (h.after m).world
      ∃ acts rest, h.world.agenda = acts ++ .leave s event :: rest ∧ (∀ d ∈ acts, d.isAct = true) ∧
        v.agenda = (event.cry? s value).toList.map (fun o => .emit o.1 o.2) ++ rest ∧
        v.sockets = h.world.sockets ∧ v.calls = h.world.calls ∧ v.loop = h.world.loop) ∧
    (h.emitted.filter fun o => o.2.complains) ++ h.world.cry?.toList = thrown ∧
    (∀ s, Attended moves s .onError →
      h.world.callbacks.filter (complainsTo s) ++ h.world.cry?.toList.filter (complainsTo s) =
        thrown.filter (complainsTo s)) ∧
    (tame {} moves = true →
      let k := History.run (calmed {} moves)
      performed {} (calmed {} moves) = (performed {} moves).filterMap calmAct? ∧
      k.world.calls = h.world.calls ∧
      (∀ s, (k.world.socket s).state = (h.world.socket s).state ∧
        (k.world.socket s).session = (h.world.socket s).session ∧
        (k.world.socket s).pending = (h.world.socket s).pending) ∧
      k.world.callbacks = h.world.callbacks.filter ordinary) := by
  intro h thrown
  have hs : Sound h.toBooks h.world := sound_run moves
  have htold : (h.emitted.filter fun o => o.2.complains) ++ h.world.cry?.toList = thrown :=
    (told_run moves).told
  refine ⟨?_, fun m s event value hthrow => contained moves hthrow, htold, ?_, ?_⟩
  · intro s data a rest hagenda
    have hhandler : h.world.handler? = some (s, data) := by simp only [World.handler?, hagenda]
    obtain ⟨event, hframe, -⟩ := frame?_of_handler (stacked_run moves) hs.shape.nested hhandler
    have hframe : frame? h.world.agenda = some (s, event) := hframe
    rw [hagenda] at hframe
    refine ⟨event, ?_⟩
    simp only [World.performing?, hagenda]
    rw [show frame? rest = some (s, event) from hframe]
    rfl
  · intro s hattended
    have hfilter : h.emitted.filter (complainsTo s) =
        (h.emitted.filter fun o => o.2.complains).filter (complainsTo s) := by
      rw [List.filter_filter]
      apply List.filter_congr
      intro o _
      cases ho : o.2.complains <;> simp [complainsTo, ho]
    rw [complaints_of_attended moves hattended, hfilter, ← List.filter_append, htold]
  · intro htame k
    have hstart : Parallel {} {} := by
      refine ⟨⟨rfl, rfl, rfl, rfl, rfl⟩, rfl, rfl⟩
    obtain ⟨hp, hperformed⟩ := hstart.run sound_empty List.IsChain.nil (Or.inl rfl) htame
    have hp : Parallel h k := hp
    refine ⟨hperformed, hp.world.calls, fun s => ?_, hp.callbacks⟩
    rw [hp.world.socket s]
    exact ⟨rfl, rfl, rfl⟩

/-- A run in which the handlers of the open, of a message and of errors throw. -/
def throwingHandlers : List Move :=
  [.create { address := "ws://host", handlers :=
      { onOpen := some [.send "a" false, .throw (.text "o"), .close]
        onMessage := some [.replace .onMessage [.throw (.number 2)], .throw (.number 1)]
        onError := some [.throw .nothing] } },
    .drive, .step, .step, .succeed 0 (handshakeResponseBody "id"), .drive, .step, .step, .step, .step,
    .step, .step, .step, .step, .step, .succeed 1 (drainResponseBody ["m"]), .drive, .step, .step, .step,
    .step, .step, .step, .step, .step, .step, .step, .step]

theorem throws_harmless_throwingHandlers :
    let h := History.run throwingHandlers
    let k := History.run (calmed {} throwingHandlers)
    Attended throwingHandlers 0 .onError ∧ tame {} throwingHandlers = true ∧ h.world.idle = true ∧
      h.world.callbacks.filter (complainsTo 0) = [(0, .error (.callback "open" (.text "o"))),
        (0, .error (.callback "message" (.number 1)))] ∧
      k.world.calls = h.world.calls ∧ k.world.calls.length = 3 ∧
      k.world.callbacks = h.world.callbacks.filter ordinary ∧
      k.world.callbacks = [(0, .opened), (0, .message "m")] := by
  intro h k
  have hattended : Attended throwingHandlers 0 .onError := attended_of_take (by decide +kernel)
  have htame : tame {} throwingHandlers = true := by decide +kernel
  obtain ⟨-, -, -, hcallbacks, hcalm⟩ := throws_harmless throwingHandlers
  obtain ⟨-, hcalls, -, hothers⟩ := hcalm htame
  have htold := hcallbacks 0 hattended
  refine ⟨hattended, htame, by decide +kernel, ?_, hcalls, by decide +kernel, hothers, by decide +kernel⟩
  rw [show (History.run throwingHandlers).world.cry? = none by decide +kernel, Option.toList_none,
    List.filter_nil, List.append_nil] at htold
  rw [htold]
  decide +kernel

end PollSocket.Socket
