import PollSocket.Proofs.Socket.Sound

set_option autoImplicit false

/-!
# Single flight and conservation of messages

The two guarantees of a socket that the invariant gives. At most one exchange is outstanding, the
mark of a socket says which one when no task is being executed, and exactly the calls that have
succeeded are aborted (`single_flight`). Every message that was sent is in a batch or waits, once and
in the order of sending (`outbound_conservation`).
-/

namespace PollSocket.Socket

variable {b : Books} {w : World}

/-- No delivery is going on when no task is being executed. -/
theorem not_resume_of_idle {w : World} (h : w.idle = true) (s : Nat) :
    Duty.resume s ∉ w.agenda := by
  unfold World.idle at h
  split at h
  next hnil => simp [hnil]
  next hrun => simp [hrun]
  next => cases h

/-- A run in which the first drain fails and its message is sent again together with the next one. -/
def retriedDrain : List Move :=
  [.create { address := "ws://host", requeue := true }, .post 0 (.send "a"), .drive, .step, .step,
    .step, .succeed 0 (handshakeResponseBody "id"), .drive, .step, .step, .step, .step, .fail 1,
    .drive, .step, .step, .post 0 (.send "b"), .drive, .step, .step]

/-- A socket has one exchange outstanding at most. When no task is being executed it is the one that
the socket has in flight, and the aborted calls are those that have succeeded; no call is aborted that
is outstanding or has failed. -/
theorem single_flight (moves : List Move) (s : Nat) :
    let h := History.run moves
    (∀ c d, h.outstanding s c → h.outstanding s d → c = d) ∧
    (h.world.idle = true → ∀ c, (h.world.socket s).inflight = some c ↔ h.outstanding s c) ∧
    (h.world.idle = true → ∀ (c : Nat) (x : Call), h.world.calls[c]? = some x →
      (x.aborted = true ↔ succeeded h.taken c = true)) ∧
    (∀ (c : Nat) (x : Call), h.world.calls[c]? = some x → x.aborted = true →
      failed h.taken c = false ∧ ∀ r, ¬ h.outstanding r c) := by
  intro h
  have hf := (sound_run moves).flights
  have hmark : ∀ c, h.outstanding s c → (h.world.socket s).inflight = some c := by
    rintro c ⟨⟨x, hx, rfl⟩, hc⟩
    exact hf.flying hx hc
  refine ⟨?_, ?_, ?_, ?_⟩
  · intro c d hc hd
    exact Option.some.inj ((hmark c hc).symm.trans (hmark d hd))
  · intro hidle c
    refine ⟨fun hc => ⟨hf.marked hc, ?_⟩, hmark c⟩
    rw [Bool.eq_false_iff]
    intro hdone
    exact not_resume_of_idle hidle s ((hf.newest hc).1.2 hdone)
  · intro hidle c x hx
    refine ⟨hf.aborted c x hx, fun hc => ?_⟩
    rcases hf.released c x hx hc with ha | hm
    · exact ha
    · have hdelivers := (hf.newest hm).1.2 (completed_of_succeeded hc)
      exact absurd hdelivers (not_resume_of_idle hidle _)
  · intro c x hx ha
    have hc := hf.aborted c x hx ha
    refine ⟨hf.not_failed_of_succeeded hc, fun r hr => ?_⟩
    have hopen := hr.2
    rw [completed_of_succeeded hc] at hopen
    cases hopen

theorem single_flight_retriedDrain :
    (History.run retriedDrain).world.idle = true ∧
      ((History.run retriedDrain).world.socket 0).inflight = some 2 ∧
      (History.run retriedDrain).outstanding 0 2 :=
  ⟨by decide, by decide, ((single_flight retriedDrain 0).2.1 (by decide) 2).1 (by decide)⟩

/-- All positions of a socket, read as messages. -/
theorem map_text_range (b : Books) (s : Nat) :
    (List.range (b.sent s).length).map (b.text s) = b.sent s := by
  refine List.ext_getElem (by simp) fun i hi hj => ?_
  simp [Books.text, List.getElem?_eq_getElem hj]

/-- Batches are what the calls carry, read as messages. -/
theorem Ledger.flatMap_batch (h : Ledger b w) {s : Nat} {calls : List Nat}
    (hcalls : ∀ c ∈ calls, c ∈ w.callsOf s) :
    calls.flatMap w.batch = (calls.flatMap b.carried).map (b.text s) := by
  rw [List.map_flatMap]
  refine List.flatMap_congr fun c hc => ?_
  obtain ⟨x, hx, rfl⟩ := World.mem_callsOf.1 (hcalls c hc)
  rw [World.batch, hx]
  exact h.batches c x hx

/-- What does not count may be left out. -/
theorem flatMap_filter_eq {α β : Type} {p : α → Bool} {f : α → List β} {xs : List α}
    (h : ∀ x ∈ xs, p x = false → f x = []) : (xs.filter p).flatMap f = xs.flatMap f := by
  induction xs with
  | nil => rfl
  | cons x more ih =>
    have hmore := ih fun y hy => h y (List.mem_cons_of_mem x hy)
    cases hx : p x with
    | true => rw [List.filter_cons_of_pos hx, List.flatMap_cons, List.flatMap_cons, hmore]
    | false =>
      rw [List.filter_cons_of_neg (by simp [hx]), List.flatMap_cons, h x List.mem_cons_self hx, hmore,
        List.nil_append]

/-- If no batch was lost, the messages that were sent on a socket are those of its batches and those
that wait. -/
theorem Sound.batches_append_pending (h : Sound b w) {s : Nat}
    (hfailed : ∀ c ∈ w.callsOf s, failed b.taken c = true → w.batch c = []) :
    (w.callsOf s).flatMap w.batch ++ (w.socket s).pending = b.sent s := by
  have hlost : ∀ c ∈ w.callsOf s, (!((w.socket s).requeue && failed b.taken c)) = false → w.batch c = [] := by
    intro c hc hnot
    rw [Bool.not_eq_false', Bool.and_eq_true] at hnot
    exact hfailed c hc hnot.2
  rw [← flatMap_filter_eq hlost, h.ledger.flatMap_batch fun c hc => List.mem_of_mem_filter hc, h.ledger.pending s,
    ← List.map_append]
  exact (congrArg _ (h.ledger.whole s)).trans (map_text_range b s)

/-- When no task is being executed, the messages that were sent on a socket are those of its batches
and those that wait, in this order. If it queues again after a failure, the batches are those that
were carried with success and the one in flight; else they are all batches. -/
theorem outbound_conservation (moves : List Move) (s : Nat) :
    let h := History.run moves
    let x := h.world.socket s
    h.world.idle = true →
    (x.requeue = false → (h.world.callsOf s).flatMap h.world.batch ++ x.pending = h.sent s) ∧
    (x.requeue = true →
      ((h.world.callsOf s).filter (succeeded h.taken)).flatMap h.world.batch ++
        x.inflight.toList.flatMap h.world.batch ++ x.pending = h.sent s) := by
  intro h x hidle
  obtain ⟨hf, hl, -⟩ := sound_run moves
  refine ⟨fun hr => ?_, fun hr => ?_⟩
  · rw [hl.flatMap_batch fun c hc => hc, hl.pending s, ← List.map_append, hl.shipped hr,
      map_text_range]
  · have hflight : x.inflight.toList.flatMap h.carried = h.afloat h.world s := by
      rw [Books.afloat, (hf.marks s).outstanding (not_resume_of_idle hidle s)]
    rw [hl.flatMap_batch fun c hc => List.mem_of_mem_filter hc, hl.flatMap_batch, hflight,
      hl.pending s, ← List.map_append, ← List.map_append]
    · have hkept := hl.kept hf hr
      rw [Books.acked] at hkept
      rw [hkept, map_text_range]
    · intro c hc
      rw [Option.mem_toList] at hc
      exact World.mem_callsOf.2 (hf.marked hc)

theorem outbound_conservation_retriedDrain :
    let h := History.run retriedDrain
    h.world.idle = true ∧ (h.world.socket 0).requeue = true ∧ h.sent 0 = ["a", "b"] ∧
      ((h.world.callsOf 0).filter (succeeded h.taken)).flatMap h.world.batch ++
        (h.world.socket 0).inflight.toList.flatMap h.world.batch ++ (h.world.socket 0).pending =
          h.sent 0 :=
  ⟨by decide, by decide, by decide,
    (outbound_conservation retriedDrain 0 (by decide)).2 (by decide)⟩

end PollSocket.Socket
