import Mathlib
import PollSocket.Proofs.Socket.History

set_option autoImplicit false

/-!
# What tasks and jobs of a socket are made of

All tasks and jobs of socket `s` are made of the same few parts: a change of the socket, a record, planned
jobs, an issued call, and a call that is given up. `World.Works` says so of all tasks (`Works.execute`) and
of all jobs (`Works.discharge`). What the parts keep, by an induction over them all tasks and jobs keep.
-/

namespace PollSocket.Socket

variable {s : Nat} {t : Task} {v w : World}

/-- What the agenda holds for one socket. -/
inductive Job where
  | emit (event : Event)
  | dispatch (messages : List String)
  | resume
  | begin
  | closeIfClosing
  deriving DecidableEq

/-- The duty by which socket `s` has a job. -/
def Job.duty (s : Nat) : Job → Duty
  | .emit event => .emit s event
  | .dispatch messages => .dispatch s messages
  | .resume => .resume s
  | .begin => .begin s
  | .closeIfClosing => .closeIfClosing s

/-- The occasion that a job is. -/
def Job.event? : Job → Option Event
  | .emit event => some event
  | _ => none

/-- A duty is a run, a part of a handler, or a job of a socket. -/
theorem Duty.byJobs {motive : Duty → Prop} (run : ∀ ran inside, motive (.run ran inside))
    (act : ∀ s data a, motive (.act s data a)) (leave : ∀ s event, motive (.leave s event))
    (job : ∀ s (j : Job), motive (j.duty s)) (d : Duty) : motive d := by
  cases d with
  | run ran inside => exact run ran inside
  | act s data a => exact act s data a
  | leave s event => exact leave s event
  | emit s event => exact job s (.emit event)
  | dispatch s messages => exact job s (.dispatch messages)
  | resume s => exact job s .resume
  | begin s => exact job s .begin
  | closeIfClosing s => exact job s .closeIfClosing

/-- The consumer is told of a value that one of its handlers threw. -/
def Event.complains : Event → Bool
  | .error (.callback _ _) => true
  | _ => false

/-- The job tells the consumer of a value that one of its handlers threw. -/
def Job.complains : Job → Bool
  | .emit event => event.complains
  | _ => false

/-- The socket that a task is for. -/
def Task.host? (w : World) : Task → Option Nat
  | .establish s => some s
  | .send s _ => some s
  | .close s => some s
  | .closeWhenDrained s => some s
  | .handle s _ _ => some s
  | .succeed c _ => w.calls[c]?.map (·.owner)
  | .fail c => w.calls[c]?.map (·.owner)

namespace World

/-- A task for nobody does nothing. -/
theorem execute_of_host?_none (h : t.host? w = none) : w.execute t = w := by
  cases t with
  | succeed c | fail c =>
    have hnone : w.calls[c]? = none := by simpa [Task.host?] using h
    simp only [execute, hnone]
  | _ => cases h

/-- World `v` is `w` after parts of tasks and jobs of socket `s`. A change of the socket leaves its mark or
takes it away. -/
inductive Works (s : Nat) (w : World) : World → Prop
  | rest : Works s w w
  | update {v : World} (h : Works s w v) {f : Socket → Socket}
    (hf : ∀ x, (f x).requeue = x.requeue ∧ ((f x).inflight = none ∨ (f x).inflight = x.inflight)) :
    Works s w (v.update s f)
  | log {v : World} (h : Works s w v) (level : Log.Level) (message : String)
    (attrs : List (String × Log.Value)) : Works s w (v.log s level message attrs)
  | push {v : World} (h : Works s w v) (jobs : List Job) (hjobs : jobs.any Job.complains = false) :
    Works s w (v.push (jobs.map (Job.duty s)))
  | issue {v : World} (h : Works s w v) (body : Option (List UInt8)) (batch : Option (List String)) :
    Works s w (v.issue s body batch)
  | release {v : World} (h : Works s w v) : Works s w (v.release s)

namespace Works

section

variable (h : w.Works s v)
include h

theorem drain : w.Works s (v.drain s) := by
  unfold World.drain
  dsimp only
  split
  · exact (h.update fun _ => by simp).issue _ _
  · exact h

theorem close : w.Works s (v.close s) := by
  unfold World.close
  dsimp only
  split
  · exact h
  · exact ((h.update fun _ => by simp).log _ _ _).push [.emit .closed] rfl

theorem closeIfDrained : w.Works s (v.closeIfDrained s) := by
  unfold World.closeIfDrained
  dsimp only
  split
  · exact h.close
  · exact h

theorem handshakeSucceeded (body : List UInt8) : w.Works s (v.handshakeSucceeded s body) := by
  unfold World.handshakeSucceeded
  cases decodeHandshakeResponse body with
  | error reason =>
    exact (h.release.log _ _ _).push [.emit (.error (.malformed .handshake reason)), .emit .closed] rfl
  | ok id =>
    have hassigned := h.release.update (f := fun x => { x with session := .assigned id }) fun _ => by simp
    dsimp only
    split
    · exact ((hassigned.update fun _ => by simp).log _ _ _).push [.emit .opened, .begin] rfl
    · exact hassigned.log _ _ _

theorem drainFailed (batch : List String) (cause : Failure) : w.Works s (v.drainFailed s batch cause) := by
  unfold World.drainFailed
  dsimp only
  have hlogged := fun attrs => (h.update (f := fun x => { x with inflight := none })
    fun _ => by simp).log .warn "write attempt failed" attrs
  have hback := fun attrs => (hlogged attrs).update (f := fun x => { x with pending := batch ++ x.pending })
    fun _ => by simp
  split
  · split
    · exact (hback _).close
    · exact (hlogged _).close
  · split
    · exact hback _
    · exact hlogged _

end

/-- Tasks are made of these parts. -/
theorem execute (ht : t.host? w = some s) : w.Works s (w.execute t) := by
  have hrest : w.Works s w := .rest
  cases t with
  | establish =>
    cases ht
    exact (hrest.log _ _ _).issue _ _
  | send r text =>
    cases ht
    have hqueued := hrest.update (f := fun x => { x with pending := x.pending ++ [text] })
      fun _ => by simp
    show w.Works s (w.send s text)
    unfold World.send
    dsimp only
    split
    · exact hqueued
    · exact hqueued.drain
  | close =>
    cases ht
    exact hrest.close
  | closeWhenDrained =>
    cases ht
    exact (hrest.update fun _ => by simp).closeIfDrained
  | handle =>
    cases ht
    exact hrest.update fun _ => by simp
  | succeed c body =>
    obtain ⟨x, hx, rfl⟩ := Option.map_eq_some_iff.1 ht
    simp only [World.execute, hx]
    split
    · exact hrest.handshakeSucceeded body
    · unfold World.drainSucceeded
      cases decodeDrainResponse body with
      | error reason =>
        exact hrest.release.push [.emit (.error (.malformed .drain reason)), .closeIfClosing] rfl
      | ok messages => exact hrest.push [.dispatch messages, .resume] rfl
  | fail c =>
    obtain ⟨x, hx, rfl⟩ := Option.map_eq_some_iff.1 ht
    simp only [World.execute, hx]
    split
    · exact hrest
    · split
      · exact ((hrest.update fun _ => by simp).log _ _ _).push [.emit .closed] rfl
      · exact hrest.drainFailed _ _

/-- So are jobs other than calls of the consumer. -/
theorem discharge {j : Job} (hj : j.event? = none) : w.Works s (w.discharge (j.duty s)) := by
  have hrest : w.Works s w := .rest
  cases j with
  | emit => cases hj
  | dispatch messages =>
    cases messages with
    | nil => exact hrest
    | cons m more =>
      exact hrest.push [.emit (.message m), .dispatch more] rfl
  | resume => exact hrest.release.drain.closeIfDrained
  | begin => exact hrest.drain.closeIfDrained
  | closeIfClosing =>
    simp only [Job.duty, World.discharge]
    split
    · exact hrest.close
    · exact hrest

end Works

end World

end PollSocket.Socket
