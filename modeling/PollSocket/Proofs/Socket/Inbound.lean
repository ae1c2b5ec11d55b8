import PollSocket.Proofs.Socket.Flights

set_option autoImplicit false

/-!
# Messages on their way to the consumer

`Inbound` is the law of the other direction: the messages of the responses whose success has been
reported are those that were due to the consumer so far, followed by those that the agenda still
holds. It is a law of one list as a socket delivers one response at a time.
-/

namespace PollSocket.Socket

variable {x : Call} {batch : List String} {c : Nat} {t : Task} {w : World}

/-- Data of a message. -/
def Event.message? : Event → Option String
  | .message m => some m
  | _ => none

/-- Messages for the consumer of socket `s` among occasions. -/
def messagesFor (s : Nat) (occasions : List (Nat × Event)) : List String :=
  occasions.filterMap fun o => if o.1 = s then o.2.message? else none

/-- Messages for the consumer of socket `s` that a task brings. -/
def Task.messages (w : World) (s : Nat) : Task → List String
  | .succeed c body =>
    match w.calls[c]? with
    | some { owner, batch := some _, .. } =>
      if owner = s then
        match decodeDrainResponse body with
        | .ok messages => messages
        | .error _ => []
      else []
    | _ => []
  | _ => []

/-- Messages that arrived are due to the consumer or on the agenda. -/
def Inbound (taken : List Task) (emitted : List (Nat × Event)) (w : World) : Prop :=
  ∀ s, taken.flatMap (Task.messages w s) =
    messagesFor s emitted ++ w.agenda.flatMap (Duty.messages s)

theorem Task.messages_of_drain (hx : w.calls[c]? = some x) (hbatch : x.batch = some batch) (s : Nat)
    (body : List UInt8) :
    (Task.succeed c body).messages w s =
      if x.owner = s then
        match decodeDrainResponse body with
        | .ok messages => messages
        | .error _ => []
      else [] := by
  obtain ⟨owner, exchange, batch', aborted, answered⟩ := x
  cases hbatch
  simp only [Task.messages, hx]

theorem Task.messages_of_handshake (hx : w.calls[c]? = some x) (hbatch : x.batch = none) (s : Nat)
    (body : List UInt8) : (Task.succeed c body).messages w s = [] := by
  obtain ⟨owner, exchange, batch', aborted, answered⟩ := x
  cases hbatch
  simp only [Task.messages, hx]

/-- Completions alone bring messages. -/
theorem Task.messages_of_not_completion (h : ∀ c, t.once? ≠ some (.complete c)) (w : World) (s : Nat) :
    t.messages w s = [] := by
  cases t with
  | succeed c body => exact absurd rfl (h c)
  | _ => rfl

/-- What a task brings depends on the call that it completes. -/
theorem Task.messages_congr {v : World} (hkeeps : w.Keeps v)
    (hknown : ∀ c, t.once? = some (.complete c) → ∃ x, w.calls[c]? = some x) (s : Nat) :
    t.messages v s = t.messages w s := by
  cases t with
  | succeed c body =>
    obtain ⟨x, hx⟩ := hknown c rfl
    obtain ⟨y, hy, howner, -, hbatch⟩ := hkeeps c x hx
    cases hb : x.batch with
    | none => rw [messages_of_handshake hx hb, messages_of_handshake hy (hbatch.trans hb)]
    | some batch => rw [messages_of_drain hx hb, messages_of_drain hy (hbatch.trans hb), howner]
  | _ => rfl

namespace Inbound

variable {taken : List Task} {emitted : List (Nat × Event)} {v : World} {R : Nat → Prop}

variable (h : Inbound taken emitted w)
include h

theorem congr (hf : Flights R taken w) (hkeeps : w.Keeps v)
    (hagenda : ∀ s, v.agenda.flatMap (Duty.messages s) = w.agenda.flatMap (Duty.messages s)) :
    Inbound taken emitted v := by
  intro s
  rw [hagenda, ← h s]
  refine List.flatMap_congr fun t ht => Task.messages_congr hkeeps (fun c hc => ?_) s
  have hmem : Once.complete c ∈ (taken ++ w.loop.queue).filterMap Task.once? :=
    List.mem_filterMap.2 ⟨t, List.mem_append_left _ ht, hc⟩
  obtain ⟨x, hx, -⟩ := hf.answered c hmem
  exact ⟨x, hx⟩

theorem quiet (hf : Flights R taken w) (q : Quiet w v) : Inbound taken emitted v :=
  h.congr hf (.of_eq q.calls) q.messages

/-- A task is taken that brings nothing. -/
theorem take (ht : ∀ s, t.messages w s = []) (l : Loop Task) :
    Inbound (taken ++ [t]) emitted { w with loop := l } := by
  intro s
  show (taken ++ [t]).flatMap (Task.messages w s) = _
  rw [List.flatMap_append, List.flatMap_singleton, ht, List.append_nil]
  exact h s

/-- A response is taken by a socket that delivers nothing: its messages go on the agenda. -/
theorem deliver (hshape : AgendaShape w.sockets.length w.agenda) {body : List UInt8} {messages : List String}
    (hx : w.calls[c]? = some x) (hbatch : x.batch = some batch)
    (hbody : decodeDrainResponse body = .ok messages) (hnot : Duty.resume x.owner ∉ w.agenda)
    (l : Loop Task) :
    Inbound (taken ++ [.succeed c body]) emitted
      (({ w with loop := l } : World).push [.dispatch x.owner messages, .resume x.owner]) := by
  intro s
  have hagenda : ([Duty.dispatch x.owner messages, .resume x.owner] ++ w.agenda).flatMap
      (Duty.messages s) =
        (if x.owner = s then messages else []) ++ w.agenda.flatMap (Duty.messages s) := by
    simp [Duty.messages]
  show (taken ++ [Task.succeed c body]).flatMap (Task.messages w s) = messagesFor s emitted ++
    ([Duty.dispatch x.owner messages, .resume x.owner] ++ w.agenda).flatMap (Duty.messages s)
  rw [hagenda, List.flatMap_append, List.flatMap_singleton, Task.messages_of_drain hx hbatch, hbody,
    h s, List.append_assoc]
  dsimp only
  split
  next heq =>
    -- nothing is on the agenda for a socket that delivers nothing
    have hnone : w.agenda.flatMap (Duty.messages s) = [] := by
      by_contra hne
      rw [← heq] at hne
      exact hnot (hshape.resume_mem hne)
    rw [hnone, List.nil_append, List.append_nil]
  next => rw [List.append_nil, List.nil_append]

/-- An occasion to call a consumer. -/
theorem emit {s : Nat} {event : Event} {rest : List Duty} (hagenda : w.agenda = .emit s event :: rest) :
    Inbound taken (emitted ++ [(s, event)]) { w with agenda := rest } := by
  intro r
  have hr := h r
  rw [hagenda, List.flatMap_cons] at hr
  have hevent : messagesFor r (emitted ++ [(s, event)]) =
      messagesFor r emitted ++ (Duty.emit s event).messages r := by
    rw [messagesFor, List.filterMap_append]
    congr 1
    by_cases hs : s = r
    · cases event <;> simp [Duty.messages, Event.message?, hs]
    · cases event <;> simp [Duty.messages, Event.message?, hs]
  rw [hevent, List.append_assoc]
  exact hr

end Inbound

end PollSocket.Socket
