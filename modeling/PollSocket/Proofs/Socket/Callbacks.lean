import PollSocket.Proofs.Socket.Growth

set_option autoImplicit false

/-!
# Calls of consumers

Who was called, and with what, stands in the journal (`World.callbacks`). A handler is called by the step that
is the occasion for it, if it is there by then, and by no other move (`History.callbacks_after`). So there are
no more calls than occasions (`callbacks_sublist`), and a handler that is always there is called on all its
occasions (`callbacks_of_attended`).
-/

namespace PollSocket.Socket

variable {event : Event} {s : Nat} {slot : Slot}

namespace World

variable (w : World)

theorem callbacks_note {n : Note} (hn : n.called? = none) : (w.note n).callbacks = w.callbacks := by
  simp [callbacks, note, hn]

theorem callbacks_log (s : Nat) (level : Log.Level) (message : String)
    (attrs : List (String × Log.Value)) : (w.log s level message attrs).callbacks = w.callbacks :=
  w.callbacks_note rfl

theorem callbacks_issue (s : Nat) (body : Option (List UInt8)) (batch : Option (List String)) :
    (w.issue s body batch).callbacks = w.callbacks := callbacks_note _ rfl

theorem callbacks_release (s : Nat) : (w.release s).callbacks = w.callbacks := by
  unfold release abort
  split
  · rfl
  · split
    · rfl
    · split
      · rfl
      · exact callbacks_note _ rfl

/-- Tasks and jobs call nobody; they plan it. -/
theorem callbacks_of_works {s : Nat} {v : World} (h : w.Works s v) : v.callbacks = w.callbacks := by
  induction h with
  | rest => rfl
  | update _ _ ih | push _ _ _ ih => exact ih
  | log _ _ _ _ ih => exact (callbacks_log _ _ _ _ _).trans ih
  | issue _ _ _ ih => exact (callbacks_issue _ _ _ _).trans ih
  | release _ ih => exact (callbacks_release _ s).trans ih

theorem callbacks_execute (t : Task) : (w.execute t).callbacks = w.callbacks := by
  cases hhost : t.host? w with
  | none => rw [execute_of_host?_none hhost]
  | some s => exact w.callbacks_of_works (.execute hhost)

theorem callbacks_perform (s : Nat) (data : String) (a : Act) :
    (w.perform s data a).callbacks = w.callbacks := by
  have hpost : ∀ (t : Task) (refused : Failure → Note), (∀ cause, (refused cause).called? = none) →
      (w.postOr t refused).callbacks = w.callbacks := by
    intro t refused hrefused
    unfold postOr
    dsimp only
    split
    · rfl
    · exact callbacks_note _ (hrefused _)
  cases a with
  | send | close | closeWhenDrained => exact hpost _ _ fun _ => rfl
  | throw value =>
    simp only [perform, throw]
    split
    · rfl
    · split
      · rfl
      · rfl
      · exact callbacks_log _ _ _ _ _
      · exact callbacks_log _ _ _ _ _
  | whenData expected script =>
    simp only [perform]
    split <;> rfl
  | report => exact callbacks_note _ rfl
  | _ => rfl

theorem callbacks_create (o : Options) : (w.create o).callbacks = w.callbacks := by
  rw [create_eq]
  split
  · rfl
  · exact callbacks_log _ _ _ _ _

/-- A step calls the consumer that it finds. -/
theorem callbacks_step : w.step.callbacks = w.callbacks ++ (w.emitting?.filter w.attends).toList := by
  unfold step emitting?
  cases hagenda : w.agenda with
  | nil => simp
  | cons d rest =>
    cases d using Duty.byJobs with
    | run ran inside =>
      dsimp only [discharge]
      rw [Option.filter_none, Option.toList_none, List.append_nil]
      split
      · exact callbacks_execute _ _
      · split
        · exact callbacks_note _ rfl
        · rfl
    | act s data a =>
      rw [Option.filter_none, Option.toList_none, List.append_nil]
      exact callbacks_perform _ s data a
    | leave => simp [discharge, callbacks]
    | job s j =>
      cases j with
      | emit event =>
        show (({ w with agenda := rest }).emit s event).callbacks = _
        rw [emit]
        cases hhandler : (w.socket s).handlers.get event.slot with
        | none =>
          have hnot : w.attends (s, event) = false := by simp [attends, hhandler]
          rw [show (World.socket { w with agenda := rest } s) = w.socket s from rfl, hhandler]
          simp [Job.duty, hnot, callbacks]
        | some script =>
          have hfound : w.attends (s, event) = true := by simp [attends, hhandler]
          rw [show (World.socket { w with agenda := rest } s) = w.socket s from rfl, hhandler]
          simp [Job.duty, hfound, callbacks, note, push, Note.called?, Option.filter]
      | _ =>
        exact (callbacks_of_works _ (.discharge rfl)).trans (List.append_nil _).symm

theorem emitting?_of_due? {w : World} {m : Move} {o : Nat × Event} (h : w.due? m = some o) :
    w.emitting? = some o := by
  cases m with
  | step => exact h
  | _ => cases h

end World

namespace History

/-- A move that is an occasion calls the handler if it is there. -/
theorem callbacks_after (h : History) (m : Move) :
    (h.after m).world.callbacks = h.world.callbacks ++ ((h.world.due? m).filter h.world.attends).toList := by
  cases m with
  | step => exact h.world.callbacks_step
  | create o => exact (h.world.callbacks_create o).trans (List.append_nil _).symm
  | act a =>
    refine Eq.trans ?_ (List.append_nil _).symm
    unfold after
    dsimp only
    split
    · exact World.callbacks_perform _ _ _ _
    · rfl
  | drive | post | succeed | fail =>
    unfold after
    dsimp only
    split <;> exact (List.append_nil _).symm
  | fault | closeLoop => exact (List.append_nil _).symm

/-- A history goes on with occasions to call consumers, some of which find one. -/
theorem callbacks_run (moves more : List Move) : ∃ due found,
    (run (moves ++ more)).emitted = (run moves).emitted ++ due ∧
      (run (moves ++ more)).world.callbacks = (run moves).world.callbacks ++ found ∧ found.Sublist due := by
  induction more using List.reverseRecOn with
  | nil => exact ⟨[], [], by simp, by simp, List.Sublist.refl _⟩
  | append_singleton front m ih =>
    obtain ⟨due, found, hemitted, hcalled, hsublist⟩ := ih
    rw [← List.append_assoc, run_concat]
    set k := run (moves ++ front)
    refine ⟨due ++ (k.world.due? m).toList, found ++ (k.world.due? m).toList.filter k.world.attends, ?_, ?_,
      hsublist.append List.filter_sublist⟩
    · rw [k.emitted_after, hemitted, List.append_assoc]
    · rw [k.callbacks_after, hcalled, Option.toList_filter, List.append_assoc]

theorem callbacks_sublist (moves : List Move) :
    (run moves).world.callbacks.Sublist (run moves).emitted := by
  obtain ⟨due, found, hemitted, hcalled, hsublist⟩ := callbacks_run [] moves
  rw [show (run moves).world.callbacks = found from hcalled, show (run moves).emitted = due from hemitted]
  exact hsublist

end History

/-- Whenever there is an occasion for a handler of socket `s`, the handler is there. -/
def Attended (moves : List Move) (s : Nat) (slot : Slot) : Prop :=
  ∀ front event, front <+: moves → (History.run front).world.emitting? = some (s, event) →
    event.slot = slot → (History.run front).world.attends (s, event) = true

/-- The occasion is one for a handler of socket `s`. -/
def isFor (s : Nat) (slot : Slot) (o : Nat × Event) : Bool := o.1 = s ∧ o.2.slot = slot

/-- A handler that is always there is called on all its occasions. -/
theorem callbacks_of_attended (moves : List Move) (h : Attended moves s slot) :
    (History.run moves).world.callbacks.filter (isFor s slot) =
      (History.run moves).emitted.filter (isFor s slot) := by
  induction moves using List.reverseRecOn with
  | nil => rfl
  | append_singleton front m ih =>
    have hfront := ih fun early event hearly => h early event (hearly.trans (List.prefix_append _ _))
    rw [History.run_concat]
    rw [(History.run front).emitted_after m, (History.run front).callbacks_after m, List.filter_append,
      List.filter_append]
    congr 1
    cases hdue : (History.run front).world.due? m with
    | none => rfl
    | some o =>
      by_cases ho : isFor s slot o = true
      · -- an occasion for the handler, which is there
        have hmatch : o.1 = s ∧ o.2.slot = slot := by simpa [isFor] using ho
        have hattends : (History.run front).world.attends o = true := by
          rw [show o = (s, o.2) from Prod.ext hmatch.1 rfl]
          exact h front o.2 (List.prefix_append _ _) (by rw [World.emitting?_of_due? hdue, ← hmatch.1]) hmatch.2
        simp [Option.filter, hattends]
      · by_cases hattends : (History.run front).world.attends o = true
        · simp [Option.filter, hattends]
        · simp [ho]

theorem messagesFor_filter (s : Nat) (occasions : List (Nat × Event)) :
    messagesFor s (occasions.filter (isFor s .onMessage)) = messagesFor s occasions := by
  rw [messagesFor, List.filterMap_filter]
  refine List.filterMap_congr fun o _ => ?_
  obtain ⟨r, event⟩ := o
  by_cases hr : r = s
  · cases event <;> simp [isFor, Event.slot, Event.message?]
  · simp [hr]

/-- The consumer whose handler is always there is called with all messages that there is an occasion
for. -/
theorem messagesFor_callbacks (moves : List Move) (h : Attended moves s .onMessage) :
    messagesFor s (History.run moves).world.callbacks = messagesFor s (History.run moves).emitted := by
  rw [← messagesFor_filter, callbacks_of_attended moves h, messagesFor_filter]

theorem count_callbacks (moves : List Move) (h : Attended moves s event.slot) :
    (History.run moves).world.callbacks.count (s, event) = (History.run moves).emitted.count (s, event) := by
  have hfor : isFor s event.slot (s, event) = true := by simp [isFor]
  rw [← List.count_filter hfor, callbacks_of_attended moves h, List.count_filter hfor]

/-- That a handler is always there can be looked up in the worlds of a run. -/
theorem attended_of_take {moves : List Move}
    (h : ∀ n ≤ moves.length, ((History.run (moves.take n)).world.emitting?.all fun o =>
      !isFor s slot o || (History.run (moves.take n)).world.attends o) = true) :
    Attended moves s slot := by
  intro front event hfront hemitting hslot
  have htake := h front.length hfront.length_le
  rw [← List.prefix_iff_eq_take.1 hfront, hemitting] at htake
  simpa [isFor, hslot] using htake

end PollSocket.Socket
