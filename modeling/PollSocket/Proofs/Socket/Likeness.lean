import PollSocket.Proofs.Socket.Parts

set_option autoImplicit false

/-!
# Worlds in which two sockets are alike

Two worlds can be related so that socket `s` of one and socket `r` of the other have the same state,
session, queues and flags, and differ only in their handlers and in the position of the call in flight.
A relation is a `Likeness` if the few parts that tasks are made of keep it: a change of the socket, a
record, planned jobs, an issued call, and a call that is given up. Then all tasks and jobs of the two
sockets keep it (`Likeness.execute`, `Likeness.discharge`), whatever else the relation says of the two
worlds.
-/

namespace PollSocket.Socket

/-- A change of a socket that neither looks at nor touches its handlers and its mark. -/
def Plain (f : Socket → Socket) : Prop :=
  ∀ (x : Socket) (handlers : Handlers) (inflight : Option Nat),
    f { x with handlers, inflight } = { f x with handlers, inflight }

/-- A relation between worlds under which socket `s` of the first and socket `r` of the second go on
alike. -/
structure Likeness (R : World → World → Prop) (s r : Nat) : Prop where
  view : ∀ {w v : World}, R w v →
    ∃ handlers inflight, v.socket r = { w.socket s with handlers, inflight }
  unmarked : ∀ {w v : World}, R w v →
    ((v.socket r).inflight = none ↔ (w.socket s).inflight = none)
  update : ∀ {w v : World}, R w v → ∀ {f : Socket → Socket}, Plain f →
    R (w.update s f) (v.update r f)
  unmark : ∀ {w v : World}, R w v →
    R (w.update s fun x => { x with inflight := none }) (v.update r fun x => { x with inflight := none })
  fault : ∀ {w v : World}, R w v → v.fault = w.fault
  log : ∀ {w v : World}, R w v → ∀ (level : Log.Level) (message : String)
    (attrs : List (String × Log.Value)), R (w.log s level message attrs) (v.log r level message attrs)
  push : ∀ {w v : World}, R w v → ∀ (jobs : List Job), (∀ j ∈ jobs, j.complains = false) →
    R (w.push (jobs.map (Job.duty s))) (v.push (jobs.map (Job.duty r)))
  issue : ∀ {w v : World}, R w v → ∀ (body : Option (List UInt8)) (batch : Option (List String)),
    R (w.issue s body batch) (v.issue r body batch)
  release : ∀ {w v : World}, R w v → R (w.release s) (v.release r)

/-- Tasks `t` and `u` ask the same of socket `s` of one world and of socket `r` of the other; they
exchange no handlers. -/
inductive Task.Alike (s r : Nat) (w v : World) : Task → Task → Prop
  | establish : Alike s r w v (.establish s) (.establish r)
  | send (text : String) : Alike s r w v (.send s text) (.send r text)
  | close : Alike s r w v (.close s) (.close r)
  | closeWhenDrained : Alike s r w v (.closeWhenDrained s) (.closeWhenDrained r)
  | succeed {c d : Nat} {x y : Call} (hx : w.calls[c]? = some x) (hy : v.calls[d]? = some y)
    (hs : x.owner = s) (hr : y.owner = r) (hbatch : y.batch = x.batch) (body : List UInt8) :
    Alike s r w v (.succeed c body) (.succeed d body)
  | fail {c d : Nat} {x y : Call} (hx : w.calls[c]? = some x) (hy : v.calls[d]? = some y)
    (hs : x.owner = s) (hr : y.owner = r) (hbatch : y.batch = x.batch)
    (haborted : y.aborted = x.aborted) : Alike s r w v (.fail c) (.fail d)

/-- In worlds with the same calls a task asks the same, unless it exchanges handlers. -/
theorem Task.Alike.of_host? {s : Nat} {w v : World} {t : Task} (hcalls : v.calls = w.calls)
    (hhost : t.host? w = some s) (ht : ∀ slot script, t ≠ .handle s slot script) : Alike s s w v t t := by
  cases t with
  | establish =>
    cases hhost
    exact .establish
  | send r text =>
    cases hhost
    exact .send text
  | close =>
    cases hhost
    exact .close
  | closeWhenDrained =>
    cases hhost
    exact .closeWhenDrained
  | handle r slot script =>
    cases hhost
    exact absurd rfl (ht slot script)
  | succeed c body =>
    obtain ⟨x, hx, howner⟩ := Option.map_eq_some_iff.1 hhost
    exact .succeed hx (by rw [hcalls, hx]) howner howner rfl body
  | fail c =>
    obtain ⟨x, hx, howner⟩ := Option.map_eq_some_iff.1 hhost
    exact .fail hx (by rw [hcalls, hx]) howner howner rfl rfl

namespace Likeness

variable {R : World → World → Prop} {s r : Nat} {w v : World}

variable (k : Likeness R s r) (h : R w v)
include k h

theorem state : (v.socket r).state = (w.socket s).state := by
  obtain ⟨handlers, inflight, hv⟩ := k.view h
  rw [hv]

theorem session : (v.socket r).session = (w.socket s).session := by
  obtain ⟨handlers, inflight, hv⟩ := k.view h
  rw [hv]

theorem pending : (v.socket r).pending = (w.socket s).pending := by
  obtain ⟨handlers, inflight, hv⟩ := k.view h
  rw [hv]

theorem closing : (v.socket r).closing = (w.socket s).closing := by
  obtain ⟨handlers, inflight, hv⟩ := k.view h
  rw [hv]

theorem drain : R (w.drain s) (v.drain r) := by
  obtain ⟨handlers, inflight, hv⟩ := k.view h
  have hprotocol : (v.socket r).protocol = (w.socket s).protocol := by rw [hv]
  unfold World.drain
  simp only [k.unmarked h, k.state h, k.pending h, k.session h, hprotocol]
  split
  · apply k.issue
    apply k.update h
    intro x handlers inflight
    rfl
  · exact h

theorem close : R (w.close s) (v.close r) := by
  unfold World.close
  dsimp only
  rw [k.state h, k.session h, k.pending h]
  split
  · exact h
  · have hclosed := k.update h (f := fun x => { x with state := .closed }) fun _ _ _ => rfl
    exact k.push (k.log hclosed _ _ _) [.emit .closed] (by simp [Job.complains, Event.complains])

theorem closeIfDrained : R (w.closeIfDrained s) (v.closeIfDrained r) := by
  obtain ⟨handlers, inflight, hv⟩ := k.view h
  have houtbound : (v.socket r).outbound = (w.socket s).outbound := by rw [hv]
  unfold World.closeIfDrained
  simp only [k.unmarked h, k.closing h, k.state h, k.pending h, houtbound]
  split
  · exact k.close h
  · exact h

theorem send (text : String) : R (w.send s text) (v.send r text) := by
  have hqueued := k.update h (f := fun x => { x with pending := x.pending ++ [text] }) fun _ _ _ => rfl
  have hmark := k.unmarked hqueued
  have hsome : ((v.update r fun x => { x with pending := x.pending ++ [text] }).socket r).inflight.isSome =
      ((w.update s fun x => { x with pending := x.pending ++ [text] }).socket s).inflight.isSome := by
    rw [Bool.eq_iff_iff, Option.isSome_iff_ne_none, Option.isSome_iff_ne_none, not_iff_not]
    exact hmark
  unfold World.send
  dsimp only
  rw [hsome, k.session hqueued]
  split
  · exact hqueued
  · exact k.drain hqueued

theorem handshakeSucceeded (body : List UInt8) :
    R (w.handshakeSucceeded s body) (v.handshakeSucceeded r body) := by
  have hreleased := k.release h
  unfold World.handshakeSucceeded
  cases decodeHandshakeResponse body with
  | error reason =>
    exact k.push (k.log hreleased _ _ _)
      [.emit (.error (.malformed .handshake reason)), .emit .closed]
      (by simp [Job.complains, Event.complains])
  | ok id =>
    have hassigned := k.update hreleased (f := fun x => { x with session := .assigned id })
      fun _ _ _ => rfl
    have hopened := k.update hassigned (f := fun x => { x with state := .opened }) fun _ _ _ => rfl
    dsimp only
    rw [k.state hassigned, k.pending hopened]
    split
    · exact k.push (k.log hopened _ _ _) [.emit .opened, .begin]
        (by simp [Job.complains, Event.complains])
    · exact k.log hassigned _ _ _

theorem handshakeFailed (cause : Failure) : R (w.handshakeFailed s cause) (v.handshakeFailed r cause) :=
  k.push (k.log (k.unmark h) _ _ _) [.emit .closed] (by simp [Job.complains, Event.complains])

theorem drainSucceeded (body : List UInt8) : R (w.drainSucceeded s body) (v.drainSucceeded r body) := by
  unfold World.drainSucceeded
  cases decodeDrainResponse body with
  | error reason =>
    exact k.push (k.release h) [.emit (.error (.malformed .drain reason)), .closeIfClosing]
      (by simp [Job.complains, Event.complains])
  | ok messages => exact k.push h [.dispatch messages, .resume] (by simp [Job.complains])

theorem drainFailed (batch : List String) (cause : Failure) :
    R (w.drainFailed s batch cause) (v.drainFailed r batch cause) := by
  obtain ⟨handlers, inflight, hv⟩ := k.view h
  have hrequeue : (v.socket r).requeue = (w.socket s).requeue := by rw [hv]
  unfold World.drainFailed
  dsimp only
  rw [hrequeue, k.closing h, k.session h]
  have hlogged := fun attrs => k.log (k.unmark h) .warn "write attempt failed" attrs
  -- the batch goes back to the queue or not, then the socket closes or not
  cases (w.socket s).requeue with
  | false =>
    split
    · exact k.close (hlogged _)
    · exact hlogged _
  | true =>
    have hback := fun attrs => k.update (hlogged attrs)
      (f := fun x => { x with pending := batch ++ x.pending }) fun _ _ _ => rfl
    split
    · exact k.close (hback _)
    · exact hback _

/-- Tasks that ask the same keep the likeness. -/
theorem execute {t u : Task} (ht : Task.Alike s r w v t u) : R (w.execute t) (v.execute u) := by
  cases ht with
  | establish => exact k.issue (k.log h _ _ _) _ _
  | send text => exact k.send h text
  | close => exact k.close h
  | closeWhenDrained =>
    apply k.closeIfDrained
    apply k.update h
    intro x handlers inflight
    rfl
  | succeed hx hy hs hr hbatch body =>
    simp only [World.execute, hx, hy, hbatch, hs, hr]
    split
    · exact k.handshakeSucceeded h body
    · exact k.drainSucceeded h body
  | fail hx hy hs hr hbatch haborted =>
    simp only [World.execute, hx, hy, haborted, hbatch, hs, hr, k.fault h]
    split
    · exact h
    · split
      · exact k.handshakeFailed h _
      · exact k.drainFailed h _ _

/-- Jobs other than calls of the consumer keep the likeness. -/
theorem discharge {j : Job} (hj : j.event? = none) : R (w.discharge (j.duty s)) (v.discharge (j.duty r)) := by
  cases j with
  | emit event => cases hj
  | dispatch messages =>
    cases messages with
    | nil => exact h
    | cons m more =>
      exact k.push h [.emit (.message m), .dispatch more]
        (by simp [Job.complains, Event.complains])
  | resume => exact k.closeIfDrained (k.drain (k.release h))
  | begin => exact k.closeIfDrained (k.drain h)
  | closeIfClosing =>
    simp only [Job.duty, World.discharge, k.closing h]
    split
    · exact k.close h
    · exact h

end Likeness

/-! ## One world -/

theorem Plain.inflight {f : Socket → Socket} (hf : Plain f) (x : Socket) :
    (f x).inflight = x.inflight := by
  have hsame := congrArg Socket.inflight (hf x x.handlers x.inflight)
  exact hsame

theorem Plain.handlers {f : Socket → Socket} (hf : Plain f) (x : Socket) :
    (f x).handlers = x.handlers := by
  have hsame := congrArg Socket.handlers (hf x x.handlers x.inflight)
  exact hsame

/-- A property of worlds that the parts of the tasks of socket `s` keep. -/
structure Kept (P : World → Prop) (s : Nat) : Prop where
  /-- A change of the socket leaves its mark or takes it away. -/
  update : ∀ {w : World}, P w → ∀ {f : Socket → Socket},
    (∀ x, (f x).inflight = none ∨ (f x).inflight = x.inflight) → P (w.update s f)
  log : ∀ {w : World}, P w → ∀ (level : Log.Level) (message : String)
    (attrs : List (String × Log.Value)), P (w.log s level message attrs)
  push : ∀ {w : World}, P w → ∀ jobs : List Job, (∀ j ∈ jobs, j.complains = false) →
    P (w.push (jobs.map (Job.duty s)))
  issue : ∀ {w : World}, P w → ∀ (body : Option (List UInt8)) (batch : Option (List String)),
    P (w.issue s body batch)
  release : ∀ {w : World}, P w → P (w.release s)

namespace Kept

variable {P : World → Prop} {s : Nat} {w : World}

theorem of_works (k : Kept P s) (h : P w) {v : World} (hv : w.Works s v) : P v := by
  induction hv with
  | rest => exact h
  | update _ hf ih => exact k.update ih fun x => (hf x).2
  | log _ _ _ _ ih => exact k.log ih _ _ _
  | push _ jobs hjobs ih => exact k.push ih jobs (by simpa using hjobs)
  | issue _ _ _ ih => exact k.issue ih _ _
  | release _ ih => exact k.release ih

/-- Tasks for the socket keep the property. -/
theorem execute (k : Kept P s) (h : P w) {t : Task} (ht : t.host? w = some s) : P (w.execute t) :=
  k.of_works h (.execute ht)

/-- Jobs of the socket other than calls of its consumer keep the property. -/
theorem discharge (k : Kept P s) (h : P w) {j : Job} (hj : j.event? = none) :
    P (w.discharge (j.duty s)) :=
  k.of_works h (.discharge hj)

end Kept

/-! ## The two actions that look at what a relation may relabel -/

namespace World

variable {w : World} {s : Nat}

theorem release_of_none (h : (w.socket s).inflight = none) : w.release s = w := by
  simp only [release, h]

theorem release_of_some {call : Nat} (h : (w.socket s).inflight = some call) :
    w.release s = (w.abort call).update s fun x => { x with inflight := none } := by
  simp only [release, h]

theorem emit_of_none {event : Event} (h : (w.socket s).handlers.get event.slot = none) :
    w.emit s event = w := by
  simp only [emit, h]

theorem emit_of_some {event : Event} {script : Script}
    (h : (w.socket s).handlers.get event.slot = some script) :
    w.emit s event =
      (w.note (.called s event)).push (script.map (.act s event.data) ++ [.leave s event]) := by
  simp only [emit, h]

end World

end PollSocket.Socket
