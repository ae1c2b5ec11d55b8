import PollSocket.Proofs.Socket.Order

set_option autoImplicit false

/-!
# The life of one socket

Seen from one socket, a history is a run of a small machine that knows no positions. A `Life` holds the
fields of the socket, what its calls carry, what the agenda holds for it, what was done to it (`Deed`)
and the occasions to call its consumer. `Life.Turn` says what can happen next; every move of a history is
a turn in the life of every socket (`turn_after`), so that what all turns keep holds in every history
(`Life.holds_run`).
-/

namespace PollSocket.Socket

variable {b : Books} {x : Call} {rest : List Duty} {batch : List String} {l : Loop Task} {s : Nat}
  {t : Task} {w : World}

/-! ## The machine -/

/-- What a task does to its socket. -/
inductive Deed where
  | establish
  | send (text : String)
  | close
  | closeWhenDrained
  | handle
  /-- The handshake was answered with an id, with something else, or not at all. -/
  | handshakeSucceeded (id : String)
  | handshakeMalformed (reason : Malformed)
  | handshakeFailed
  /-- A drain was answered with messages, with something else, or not at all. -/
  | drainSucceeded (batch messages : List String)
  | drainMalformed (batch : List String) (reason : Malformed)
  | drainFailed (batch : List String)
  deriving DecidableEq

/-- A socket with what it has lived through. -/
structure Life where
  requeue : Bool := false
  state : ReadyState := .connecting
  session : SessionId := .unassigned
  pending : List String := []
  outbound : Nat := 0
  closing : Bool := false
  /-- What the call in flight carries; a handshake has no batch. -/
  flight : Option (Option (List String)) := none
  /-- What all calls carry, oldest first. -/
  issued : List (Option (List String)) := []
  agenda : List Job := []
  trail : List Deed := []
  emitted : List Event := []

namespace Life

def push (l : Life) (jobs : List Job) : Life := { l with agenda := jobs ++ l.agenda }

def issue (l : Life) (batch : Option (List String)) : Life :=
  { l with flight := some batch, issued := l.issued ++ [batch] }

/-- The call in flight has come to its end. -/
def land (l : Life) : Life := { l with flight := none }

def drain (l : Life) : Life :=
  if l.state = .opened ∧ l.flight = none then
    { l with pending := [], outbound := l.pending.length }.issue (some l.pending)
  else l

/-- The consumer is told, unless the socket is closed. -/
def close (l : Life) : Life :=
  { l with
    state := .closed
    agenda := (if l.state = .closed then [] else [.emit .closed]) ++ l.agenda }

def closeIfDrained (l : Life) : Life :=
  if l.closing ∧ l.state = .opened ∧ l.pending = [] ∧ (l.flight = none ∨ l.outbound = 0) then l.close
  else l

theorem drain_eq_issue {l : Life} (hopened : l.state = .opened) (hfree : l.flight = none) :
    l.drain = { l with pending := [], outbound := l.pending.length }.issue (some l.pending) :=
  if_pos ⟨hopened, hfree⟩

theorem drain_eq_self {l : Life} (h : ¬ (l.state = .opened ∧ l.flight = none)) : l.drain = l :=
  if_neg h

theorem close_eq_self {l : Life} (h : l.state = .closed) : l.close = l := by
  obtain ⟨⟩ := l
  cases h
  rfl

theorem closeIfDrained_eq_close {l : Life} (hclosing : l.closing = true) (hopened : l.state = .opened)
    (hpending : l.pending = []) (hflight : l.flight = none ∨ l.outbound = 0) :
    l.closeIfDrained = l.close := if_pos ⟨hclosing, hopened, hpending, hflight⟩

theorem closeIfDrained_eq_self {l : Life}
    (h : ¬ (l.closing ∧ l.state = .opened ∧ l.pending = [] ∧ (l.flight = none ∨ l.outbound = 0))) :
    l.closeIfDrained = l := if_neg h

/-- What a deed changes. -/
def execute (l : Life) : Deed → Life
  | .establish => l.issue none
  | .send text =>
    let l := { l with pending := l.pending ++ [text] }
    if l.flight.isSome || !l.session.isAssigned then l else l.drain
  | .close => l.close
  | .closeWhenDrained => { l with closing := true }.closeIfDrained
  | .handle => l
  | .handshakeSucceeded id =>
    let l := { l.land with session := .assigned id }
    if l.state = .connecting then { l with state := .opened }.push [.emit .opened, .begin] else l
  | .handshakeMalformed reason =>
    l.land.push [.emit (.error (.malformed .handshake reason)), .emit .closed]
  | .handshakeFailed => l.land.push [.emit .closed]
  | .drainSucceeded _ messages => l.push [.dispatch messages, .resume]
  | .drainMalformed _ reason =>
    l.land.push [.emit (.error (.malformed .drain reason)), .closeIfClosing]
  | .drainFailed batch =>
    let l := { l.land with pending := if l.requeue then batch ++ l.pending else l.pending }
    if l.closing then l.close else l

/-- What a job changes that has been taken off the agenda. -/
def discharge (l : Life) : Job → Life
  | .emit event => { l with emitted := l.emitted ++ [event] }
  | .dispatch [] => l
  | .dispatch (m :: more) => l.push [.emit (.message m), .dispatch more]
  | .resume => l.land.drain.closeIfDrained
  | .begin => l.drain.closeIfDrained
  | .closeIfClosing => if l.closing then l.close else l

/-- When a deed can be done: the handshake comes first, and a completion is one of the call in flight,
while no response is being delivered. -/
def Allows (l : Life) : Deed → Prop
  | .establish => l.trail = []
  | .handshakeSucceeded _ | .handshakeMalformed _ | .handshakeFailed =>
    l.flight = some none ∧ .resume ∉ l.agenda
  | .drainSucceeded batch _ | .drainMalformed batch _ | .drainFailed batch =>
    l.flight = some (some batch) ∧ .resume ∉ l.agenda
  | .send _ | .close | .closeWhenDrained | .handle => True

/-- What can happen next. That a socket has opened is told before anything else is done. -/
inductive Turn (l : Life) : Life → Prop
  | rest : Turn l l
  | created (requeue : Bool) (h : l.trail = []) : Turn l { l with requeue }
  | deed (d : Deed) (h : l.Allows d) (hprompt : .emit .opened ∉ l.agenda) :
    Turn l ({ l with trail := l.trail ++ [d] }.execute d)
  | job (j : Job) (rest : List Job) (h : l.agenda = j :: rest) (hprompt : .emit .opened ∉ rest) :
    Turn l ({ l with agenda := rest }.discharge j)
  /-- A handler threw a value. -/
  | caught (name : String) (value : Thrown) (hprompt : .emit .opened ∉ l.agenda) :
    Turn l (l.push [.emit (.error (.callback name value))])

end Life

/-! ## Lives in a history -/

/-- What a duty is to socket `s`. -/
def Duty.job? (s : Nat) : Duty → Option Job
  | .emit r event => if r = s then some (.emit event) else none
  | .dispatch r messages => if r = s then some (.dispatch messages) else none
  | .resume r => if r = s then some .resume else none
  | .begin r => if r = s then some .begin else none
  | .closeIfClosing r => if r = s then some .closeIfClosing else none
  | .run _ _ => none
  | .act _ _ _ => none
  | .leave _ _ => none

theorem Duty.job?_eq_some {d : Duty} {j : Job} : d.job? s = some j ↔ d = j.duty s := by
  cases d <;> cases j <;> simp [Duty.job?, Job.duty]

theorem mem_jobs {agenda : List Duty} {j : Job} :
    j ∈ agenda.filterMap (Duty.job? s) ↔ j.duty s ∈ agenda := by
  simp [Duty.job?_eq_some]

/-- What it is to the owner of a call that the call succeeds. -/
def Call.success (x : Call) (body : List UInt8) : Deed :=
  match x.batch with
  | none =>
    match decodeHandshakeResponse body with
    | .ok id => .handshakeSucceeded id
    | .error reason => .handshakeMalformed reason
  | some batch =>
    match decodeDrainResponse body with
    | .ok messages => .drainSucceeded batch messages
    | .error reason => .drainMalformed batch reason

/-- What it is to the owner of a call that the call fails. -/
def Call.failure (x : Call) : Deed :=
  match x.batch with
  | none => .handshakeFailed
  | some batch => .drainFailed batch

/-- What a task is to socket `s`. -/
def Task.deed? (w : World) (s : Nat) : Task → Option Deed
  | .establish r => if r = s then some .establish else none
  | .send r text => if r = s then some (.send text) else none
  | .close r => if r = s then some .close else none
  | .closeWhenDrained r => if r = s then some .closeWhenDrained else none
  | .handle r _ _ => if r = s then some .handle else none
  | .succeed c body => w.calls[c]?.bind fun x => if x.owner = s then some (x.success body) else none
  | .fail c => w.calls[c]?.bind fun x => if x.owner = s then some x.failure else none

/-- Owners and batches of all calls. -/
def World.stubs (w : World) : List (Nat × Option (List String)) :=
  w.calls.map fun x => (x.owner, x.batch)

/-- The life of a socket that is at position `s` of a world with these calls and this agenda. -/
def life (x : Socket) (stubs : List (Nat × Option (List String))) (agenda : List Duty) (s : Nat)
    (trail : List Deed) (emitted : List Event) : Life :=
  { requeue := x.requeue
    state := x.state
    session := x.session
    pending := x.pending
    outbound := x.outbound
    closing := x.closing
    flight := x.inflight.map fun c => stubs[c]?.bind (·.2)
    issued := stubs.filterMap fun p => if p.1 = s then some p.2 else none
    agenda := agenda.filterMap (Duty.job? s)
    trail
    emitted }

/-- The life of socket `s` in a world. -/
def World.life (w : World) (s : Nat) (trail : List Deed) (emitted : List Event) : Life :=
  (w.socket s).life w.stubs w.agenda s trail emitted

namespace History

/-- What was done to socket `s`, oldest first. -/
def trail (h : History) (s : Nat) : List Deed := h.taken.filterMap (Task.deed? h.world s)

/-- Occasions to call the consumer of socket `s`, oldest first. -/
def occasions (h : History) (s : Nat) : List Event :=
  h.emitted.filterMap fun o => if o.1 = s then some o.2 else none

/-- The life of socket `s` so far. -/
def life (h : History) (s : Nat) : Life := h.world.life s (h.trail s) (h.occasions s)

end History

/-! ## Parts of a step, seen from their socket -/

namespace World

variable {v : World} {r : Nat} {trail : List Deed} {emitted : List Event}

theorem stubs_modify (w : World) (c : Nat) (f : Call → Call) (howner : ∀ x, (f x).owner = x.owner)
    (hbatch : ∀ x, (f x).batch = x.batch) :
    ({ w with calls := w.calls.modify c f } : World).stubs = w.stubs := by
  refine List.ext_getElem? fun d => ?_
  simp only [stubs, List.getElem?_map, List.getElem?_modify]
  cases w.calls[d]? with
  | none => rfl
  | some x => by_cases hd : c = d <;> simp [hd, howner, hbatch]

theorem stubs_abort (w : World) (c : Nat) : (w.abort c).stubs = w.stubs := by
  unfold abort
  split
  · rfl
  · split
    · rfl
    · exact w.stubs_modify c _ (fun _ => rfl) fun _ => rfl

theorem stubs_release (w : World) (s : Nat) : (w.release s).stubs = w.stubs := by
  unfold release
  split
  · rfl
  · exact w.stubs_abort _

@[simp]
theorem flight_life_eq_none :
    (w.life s trail emitted).flight = none ↔ (w.socket s).inflight = none := Option.map_eq_none_iff

section

variable (w : World)

@[simp]
theorem life_log (r : Nat) (level : Log.Level) (message : String) (attrs : List (String × Log.Value)) :
    (w.log r level message attrs).life s trail emitted = w.life s trail emitted := rfl

theorem life_push (duties : List Duty) (s : Nat) : (w.push duties).life s trail emitted =
      (w.life s trail emitted).push (duties.filterMap (Duty.job? s)) := by
  unfold World.life Socket.life Life.push
  simp [push, socket, stubs]

/-- Calling a consumer is no job of any socket. -/
theorem life_emit (r : Nat) (event : Event) (s : Nat) :
    (w.emit r event).life s trail emitted = w.life s trail emitted := by
  unfold emit
  split
  · rfl
  next script _ =>
    -- the acts of a handler and its end are nobody's job
    have hnone : (script.map (Duty.act r event.data) ++ [Duty.leave r event]).filterMap
        (Duty.job? s) = [] := by
      simp [Duty.job?]
    rw [life_push, hnone]
    rfl

theorem life_update (hs : s < w.sockets.length) (f : Socket → Socket) : (w.update s f).life s trail emitted =
      (f (w.socket s)).life w.stubs w.agenda s trail emitted := by
  unfold World.life
  rw [socket_update, if_pos ⟨rfl, hs⟩]
  rfl

theorem life_release (s : Nat) : (w.release s).life s trail emitted = (w.life s trail emitted).land := by
  unfold release
  split
  next hnone =>
    unfold World.life Socket.life Life.land
    rw [hnone]
    rfl
  next c hc =>
    rw [life_update _ (by rw [sockets_abort]; exact lt_of_inflight hc), stubs_abort, agenda_abort,
      socket_of_sockets_eq (w.sockets_abort c)]
    rfl

theorem life_issue (hs : s < w.sockets.length) (body : Option (List UInt8)) (batch : Option (List String)) :
    (w.issue s body batch).life s trail emitted = (w.life s trail emitted).issue batch := by
  have hstubs : (w.issue s body batch).stubs = w.stubs ++ [(s, batch)] := by
    rw [stubs, calls_issue, List.map_append]
    rfl
  have hlength : w.stubs.length = w.calls.length := List.length_map _
  unfold World.life
  rw [socket_issue, if_pos ⟨rfl, hs⟩, hstubs]
  unfold Socket.life Life.issue
  -- the new stub is the last one, and the mark points to it
  simp only [Option.map_some, ← hlength, List.getElem?_concat_length,
    List.filterMap_append, List.filterMap_cons]
  rfl

theorem life_drain (s : Nat) : (w.drain s).life s trail emitted = (w.life s trail emitted).drain := by
  unfold drain
  dsimp only
  split
  next hcond =>
    have hs := lt_of_opened hcond.1
    rw [life_issue _ (by rwa [length_sockets_update]), life_update w hs,
      Life.drain_eq_issue hcond.1 (flight_life_eq_none.2 hcond.2)]
    rfl
  next hcond =>
    exact (Life.drain_eq_self fun hand => hcond ⟨hand.1, flight_life_eq_none.1 hand.2⟩).symm

theorem life_close (hs : s < w.sockets.length) :
    (w.close s).life s trail emitted = (w.life s trail emitted).close := by
  unfold close
  dsimp only
  split
  next hclosed => exact (Life.close_eq_self hclosed).symm
  next hclosed =>
    have hclosed' : (w.life s trail emitted).state ≠ .closed := hclosed
    rw [life_push, life_log, life_update w hs, Life.close, if_neg hclosed']
    simp [Duty.job?]
    rfl

theorem life_closeIfDrained (s : Nat) :
    (w.closeIfDrained s).life s trail emitted = (w.life s trail emitted).closeIfDrained := by
  unfold closeIfDrained
  dsimp only
  split
  next hcond =>
    obtain ⟨hclosing, hopened, hpending, hflight⟩ := hcond
    rw [life_close w (lt_of_opened hopened)]
    exact (Life.closeIfDrained_eq_close hclosing hopened hpending
      (hflight.imp_left flight_life_eq_none.2)).symm
  next hcond =>
    refine (Life.closeIfDrained_eq_self fun hand => hcond ⟨hand.1, hand.2.1, hand.2.2.1, ?_⟩).symm
    exact hand.2.2.2.imp_left flight_life_eq_none.1

theorem life_handshakeSucceeded (hs : x.owner < w.sockets.length) (hbatch : x.batch = none) (body : List UInt8) :
    (w.handshakeSucceeded x.owner body).life x.owner trail emitted =
      (w.life x.owner trail emitted).execute (x.success body) := by
  unfold handshakeSucceeded Call.success
  rw [hbatch]
  cases decodeHandshakeResponse body with
  | error reason =>
    rw [life_push, life_log, life_release]
    simp [Duty.job?, Life.execute]
  | ok id =>
    set u := (w.release x.owner).update x.owner fun y => { y with session := .assigned id }
    have hlt : x.owner < (w.release x.owner).sockets.length := by rwa [length_sockets_release]
    -- the session is assigned whether the socket still connects or was closed meanwhile
    have hassigned : u.life x.owner trail emitted =
        { (w.life x.owner trail emitted).land with session := .assigned id } := by
      rw [life_update _ hlt, ← life_release]
      rfl
    have hstate : (u.socket x.owner).state = (w.life x.owner trail emitted).land.state :=
      congrArg Life.state hassigned
    simp only [Life.execute]
    split
    next hconnecting =>
      have hopened : (u.update x.owner fun y => { y with state := .opened }).life x.owner trail emitted =
          { u.life x.owner trail emitted with state := .opened } :=
        life_update u (by rwa [length_sockets_update]) _
      rw [if_pos (hstate.symm.trans hconnecting), life_push, life_log, hopened, hassigned]
      simp [Duty.job?]
    next hconnecting =>
      rw [if_neg fun h => hconnecting (hstate.trans h), life_log, hassigned]

theorem life_drainSucceeded (hbatch : x.batch = some batch) (body : List UInt8) :
    (w.drainSucceeded x.owner body).life x.owner trail emitted =
      (w.life x.owner trail emitted).execute (x.success body) := by
  unfold drainSucceeded Call.success
  rw [hbatch]
  cases decodeDrainResponse body with
  | error reason =>
    rw [life_push, life_release]
    simp [Duty.job?, Life.execute]
  | ok messages =>
    rw [life_push]
    simp [Duty.job?, Life.execute]

theorem life_handshakeFailed (hs : x.owner < w.sockets.length) (hbatch : x.batch = none) (cause : Failure) :
    (w.handshakeFailed x.owner cause).life x.owner trail emitted =
      (w.life x.owner trail emitted).execute x.failure := by
  unfold handshakeFailed Call.failure
  rw [hbatch, life_push, life_log, life_update w hs]
  simp [Duty.job?]
  rfl

theorem life_drainFailed (hs : x.owner < w.sockets.length) (hbatch : x.batch = some batch) (cause : Failure) :
    (w.drainFailed x.owner batch cause).life x.owner trail emitted =
      (w.life x.owner trail emitted).execute x.failure := by
  have hfailure : x.failure = .drainFailed batch := by rw [Call.failure, hbatch]
  set l := w.life x.owner trail emitted
  set u := (w.update x.owner fun x => { x with inflight := none }).log x.owner .warn
    "write attempt failed" [("session", .text (w.socket x.owner).session.wire),
      ("batch", .number batch.length), ("requeued", .truth (w.socket x.owner).requeue),
      ("error", .failure cause)]
  have hlt : x.owner < u.sockets.length := by
    show x.owner < (w.update x.owner _).sockets.length
    rwa [length_sockets_update]
  have hlanded : u.life x.owner trail emitted = l.land := by
    rw [life_log, life_update w hs]
    rfl
  set v := if (w.socket x.owner).requeue then
    u.update x.owner fun x => { x with pending := batch ++ x.pending } else u with hv
  -- a socket that queues again has the batch back before it may close
  have hback : v.life x.owner trail emitted =
      { l.land with pending := if l.requeue then batch ++ l.pending else l.pending } := by
    rw [hv]
    by_cases hr : (w.socket x.owner).requeue = true
    · have hr' : l.requeue = true := hr
      have hqueued : (u.update x.owner fun x => { x with pending := batch ++ x.pending }).life x.owner
          trail emitted = { u.life x.owner trail emitted with
            pending := batch ++ (u.life x.owner trail emitted).pending } :=
        life_update u hlt _
      rw [if_pos hr, if_pos hr', hqueued, hlanded]
      rfl
    · have hr' : ¬ l.requeue = true := hr
      rw [if_neg hr, if_neg hr', hlanded]
      rfl
  have hvlt : x.owner < v.sockets.length := by
    rw [hv]
    split
    · rwa [length_sockets_update]
    · exact hlt
  show (if (w.socket x.owner).closing then v.close x.owner else v).life x.owner trail emitted = _
  rw [hfailure]
  by_cases hclosing : (w.socket x.owner).closing = true
  · have hclosing' : l.closing = true := hclosing
    rw [if_pos hclosing, life_close v hvlt, hback]
    exact (if_pos hclosing').symm
  · have hclosing' : ¬ l.closing = true := hclosing
    rw [if_neg hclosing, hback]
    exact (if_neg hclosing').symm

/-- What a task does to the socket it is for. -/
theorem life_execute {d : Deed} (hd : t.deed? w s = some d) (hs : s < w.sockets.length)
    (hlive : ∀ (c : Nat) (x : Call), t = .fail c → w.calls[c]? = some x → x.aborted = false) :
    (w.execute t).life s trail emitted = (w.life s trail emitted).execute d := by
  cases t with
  | establish r =>
    obtain ⟨rfl, ⟨⟩⟩ := Option.ite_none_right_eq_some.1 hd
    exact life_issue _ hs none none
  | send r text =>
    obtain ⟨rfl, ⟨⟩⟩ := Option.ite_none_right_eq_some.1 hd
    set u := w.update r fun x => { x with pending := x.pending ++ [text] }
    have hqueued : u.life r trail emitted =
        { w.life r trail emitted with pending := (w.socket r).pending ++ [text] } :=
      life_update w hs _
    -- queueing the message changes neither the mark nor the session
    have hbusy : ((u.socket r).inflight.isSome || !(u.socket r).session.isAssigned) =
        ((w.life r trail emitted).flight.isSome || !(w.life r trail emitted).session.isAssigned) := by
      rw [socket_update, if_pos ⟨rfl, hs⟩]
      simp [World.life, Socket.life]
    show (if (u.socket r).inflight.isSome || !(u.socket r).session.isAssigned then u
      else u.drain r).life r trail emitted = _
    simp only [hbusy, Life.execute]
    split
    · exact hqueued
    · rw [life_drain, hqueued]
      rfl
  | close r =>
    obtain ⟨rfl, ⟨⟩⟩ := Option.ite_none_right_eq_some.1 hd
    exact life_close w hs
  | closeWhenDrained r =>
    obtain ⟨rfl, ⟨⟩⟩ := Option.ite_none_right_eq_some.1 hd
    exact (life_closeIfDrained _ r).trans (congrArg Life.closeIfDrained (life_update w hs _))
  | handle r slot script =>
    obtain ⟨rfl, ⟨⟩⟩ := Option.ite_none_right_eq_some.1 hd
    exact life_update w hs _
  | succeed c body =>
    obtain ⟨x, hx, hown⟩ := Option.bind_eq_some_iff.1 hd
    obtain ⟨rfl, ⟨⟩⟩ := Option.ite_none_right_eq_some.1 hown
    cases hbatch : x.batch with
    | none =>
      have hexecute : w.execute (.succeed c body) = w.handshakeSucceeded x.owner body := by
        simp only [execute, hx, hbatch]
      rw [hexecute]
      exact life_handshakeSucceeded w hs hbatch body
    | some batch =>
      have hexecute : w.execute (.succeed c body) = w.drainSucceeded x.owner body := by
        simp only [execute, hx, hbatch]
      rw [hexecute]
      exact life_drainSucceeded w hbatch body
  | fail c =>
    obtain ⟨x, hx, hown⟩ := Option.bind_eq_some_iff.1 hd
    obtain ⟨rfl, ⟨⟩⟩ := Option.ite_none_right_eq_some.1 hown
    -- an aborted call would have ignored its failure
    have hab := hlive c x rfl hx
    cases hbatch : x.batch with
    | none =>
      have hexecute : w.execute (.fail c) = w.handshakeFailed x.owner w.fault := by
        simp only [execute, hx, hab, hbatch, Bool.false_eq_true, if_false]
      rw [hexecute]
      exact life_handshakeFailed w hs hbatch w.fault
    | some batch =>
      have hexecute : w.execute (.fail c) = w.drainFailed x.owner batch w.fault := by
        simp only [execute, hx, hab, hbatch, Bool.false_eq_true, if_false]
      rw [hexecute]
      exact life_drainFailed w hs hbatch w.fault

end

/-! ## Parts of a step, seen from the other sockets -/

/-- Nothing changes but socket `s`. -/
structure Only (s : Nat) (w v : World) : Prop where
  socket : ∀ r ≠ s, v.socket r = w.socket r
  stubs : ∃ batches : List (Option (List String)), v.stubs = w.stubs ++ batches.map (Prod.mk s)
  agenda : ∀ r ≠ s, v.agenda.filterMap (Duty.job? r) = w.agenda.filterMap (Duty.job? r)

namespace Only

theorem of_stubs (hstubs : v.stubs = w.stubs) (hagenda : v.agenda = w.agenda)
    (hsocket : ∀ r ≠ s, v.socket r = w.socket r) : Only s w v where
  socket := hsocket
  stubs := ⟨[], by simp [hstubs]⟩
  agenda r _ := by rw [hagenda]

theorem refl (s : Nat) (w : World) : Only s w w := of_stubs rfl rfl fun _ _ => rfl

theorem trans {u : World} (h : Only s u v) (k : Only s v w) : Only s u w where
  socket r hr := (k.socket r hr).trans (h.socket r hr)
  stubs := by
    obtain ⟨bs, hv⟩ := h.stubs
    obtain ⟨cs, hw⟩ := k.stubs
    exact ⟨bs ++ cs, by rw [hw, hv, List.map_append, List.append_assoc]⟩
  agenda r hr := (k.agenda r hr).trans (h.agenda r hr)

theorem update (w : World) (s : Nat) (f : Socket → Socket) : Only s w (w.update s f) :=
  of_stubs rfl rfl fun r hr => by rw [socket_update, if_neg fun hand => hr hand.1]

theorem push (w : World) {duties : List Duty} (h : ∀ r ≠ s, duties.filterMap (Duty.job? r) = []) :
    Only s w (w.push duties) where
  socket _ _ := rfl
  stubs := ⟨[], (List.append_nil _).symm⟩
  agenda r hr := by
    show (duties ++ w.agenda).filterMap _ = _
    rw [List.filterMap_append, h r hr, List.nil_append]

theorem log (w : World) (s : Nat) (level : Log.Level) (message : String)
    (attrs : List (String × Log.Value)) : Only s w (w.log s level message attrs) :=
  of_stubs rfl rfl fun _ _ => rfl

theorem release (w : World) (s : Nat) : Only s w (w.release s) := by
  refine of_stubs (w.stubs_release s) (w.agenda_release s) fun r hr => ?_
  unfold World.release
  split
  · rfl
  next c _ =>
    rw [socket_update, if_neg fun hand => hr hand.1, socket_of_sockets_eq (w.sockets_abort c)]

theorem issue (w : World) (s : Nat) (body : Option (List UInt8)) (batch : Option (List String)) :
    Only s w (w.issue s body batch) where
  socket r hr := by rw [socket_issue, if_neg fun hand => hr hand.1]
  stubs := ⟨[batch], by rw [World.stubs, calls_issue, List.map_append]; rfl⟩
  agenda _ _ := rfl

/-- Tasks and jobs of a socket. -/
theorem of_works (h : w.Works s v) : Only s w v := by
  induction h with
  | rest => exact refl s w
  | update _ _ ih => exact ih.trans (update _ s _)
  | log _ _ _ _ ih => exact ih.trans (log _ s _ _ _)
  | push _ jobs _ ih =>
    refine ih.trans (push _ fun r hr => ?_)
    rw [List.filterMap_eq_nil_iff]
    intro d hd
    obtain ⟨j, -, rfl⟩ := List.mem_map.1 hd
    cases j <;> exact if_neg hr.symm
  | issue _ _ _ ih => exact ih.trans (issue _ s _ _)
  | release _ ih => exact ih.trans (release _ s)

/-- A socket that is not `s` lives on as it did. -/
theorem life_eq (h : Only s w v) (hr : r ≠ s)
    (hmark : ∀ c, (w.socket r).inflight = some c → c < w.calls.length) :
    v.life r trail emitted = w.life r trail emitted := by
  obtain ⟨batches, hstubs⟩ := h.stubs
  have hflight : (w.socket r).inflight.map (fun c => v.stubs[c]?.bind (·.2)) =
      (w.socket r).inflight.map (fun c => w.stubs[c]?.bind (·.2)) := by
    refine Option.map_congr fun c hc => ?_
    -- a mark points to an old stub, so new ones do not move it
    have hlt : c < w.stubs.length := by
      rw [World.stubs, List.length_map]
      exact hmark c hc
    rw [hstubs, List.getElem?_append_left hlt]
  have hissued : v.stubs.filterMap (fun p => if p.1 = r then some p.2 else none) =
      w.stubs.filterMap (fun p => if p.1 = r then some p.2 else none) := by
    have hnone : (batches.map (Prod.mk s)).filterMap
        (fun p => if p.1 = r then some p.2 else none) = [] := by
      simp [hr.symm]
    rw [hstubs, List.filterMap_append, hnone, List.append_nil]
  unfold World.life Socket.life
  rw [h.socket r hr, hflight, hissued, h.agenda r hr]

end Only

/-- What a task does to a socket that it is not for. -/
theorem life_execute_other (w : World) (hd : t.deed? w r = none)
    (hmark : ∀ c, (w.socket r).inflight = some c → c < w.calls.length) :
    (w.execute t).life r trail emitted = w.life r trail emitted := by
  cases hhost : t.host? w with
  | none => rw [execute_of_host?_none hhost]
  | some s =>
    have hr : r ≠ s := by
      rintro rfl
      cases t with
      | succeed c | fail c =>
        obtain ⟨x, hx, rfl⟩ := Option.map_eq_some_iff.1 hhost
        simp [Task.deed?, hx] at hd
      | _ =>
        cases hhost
        simp [Task.deed?] at hd
    exact (Only.of_works (.execute hhost)).life_eq hr hmark

end World

/-! ## Moves are turns -/

/-- What a task is to a socket depends on the call that it completes. -/
theorem Task.deed?_congr {v : World} (hkeeps : w.Keeps v)
    (hknown : ∀ c, t.once? = some (.complete c) → ∃ x, w.calls[c]? = some x) (s : Nat) :
    t.deed? v s = t.deed? w s := by
  cases t with
  | succeed c | fail c =>
    obtain ⟨x, hx⟩ := hknown c rfl
    obtain ⟨y, hy, howner, -, hbatch⟩ := hkeeps c x hx
    simp only [Task.deed?, hx, hy, Option.bind_some, Call.success, Call.failure, howner, hbatch]
  | _ => rfl

namespace History

variable {h k : History}

/-- What was done to a socket stays so. -/
theorem Extends.trail (e : h.Extends k) (hs : Sound h.toBooks h.world) {t : Option Task}
    (htaken : k.taken = h.taken ++ t.toList)
    (hknown : ∀ c, (t.bind Task.once?) = some (.complete c) → ∃ x, h.world.calls[c]? = some x) :
    k.trail s = h.trail s ++ (t.bind (Task.deed? h.world s)).toList := by
  -- calls keep owner and batch, so what a taken task was to the socket it still is
  have hold : h.taken.filterMap (Task.deed? k.world s) = h.trail s := by
    refine List.filterMap_congr fun u hu => Task.deed?_congr e.keeps (fun c hc => ?_) s
    obtain ⟨x, hx, -⟩ := hs.flights.answered c
      (List.mem_filterMap.2 ⟨u, List.mem_append_left _ hu, hc⟩)
    exact ⟨x, hx⟩
  rw [History.trail, htaken, List.filterMap_append, hold]
  cases t with
  | none => rfl
  | some t =>
    have hnew : t.deed? k.world s = t.deed? h.world s :=
      Task.deed?_congr e.keeps (fun c hc => hknown c hc) s
    rw [Option.toList_some, List.filterMap_cons, hnew, Option.bind_some]
    cases t.deed? h.world s <;> rfl

theorem occasions_step (h : History) (s : Nat) :
    h.step.occasions s = h.occasions s ++
      (h.world.emitting?.bind fun o => if o.1 = s then some o.2 else none).toList := by
  rw [occasions, h.emitted_step, List.filterMap_append, occasions]
  cases h.world.emitting? with
  | none => rfl
  | some o => by_cases ho : o.1 = s <;> simp [ho]

end History

variable {trail : List Deed} {emitted : List Event}

namespace World

/-- What a handler does changes no life, but for an error that is to be told if it throws. -/
theorem turn_perform (hin : insideHandler w.agenda = true) (hnested : Nested w.agenda)
    (hprompt : ∀ r, Duty.emit r .opened ∉ w.agenda) (r : Nat) (data : String) (a : Act) :
    (w.life s trail emitted).Turn ((w.perform r data a).life s trail emitted) := by
  have hpost : ∀ (t : Task) (refused : Failure → Note),
      (w.postOr t refused).life s trail emitted = w.life s trail emitted := by
    intro t refused
    unfold postOr
    dsimp only
    split <;> rfl
  cases a with
  | send | close | closeWhenDrained =>
    simp only [perform, hpost]
    exact .rest
  | whenData expected script =>
    simp only [perform]
    split
    · rw [life_push]
      have hnone : (script.map (Duty.act r data)).filterMap (Duty.job? s) = [] := by
        simp [Duty.job?]
      rw [hnone]
      exact .rest
    · exact .rest
  | throw value =>
    obtain ⟨acts, q, event, rest, hagenda, hacts, hunwind, -⟩ := unwind_nested hin hnested
    -- dropping the acts of the handler and its end drops no job
    have hdropped : ({ w with agenda := rest } : World).life s trail emitted = w.life s trail emitted := by
      have hnone : acts.filterMap (Duty.job? s) = [] := by
        refine List.filterMap_eq_nil_iff.2 fun d hd => ?_
        cases d with
        | act | leave => rfl
        | _ => cases hacts _ hd
      have hjobs : w.agenda.filterMap (Duty.job? s) = rest.filterMap (Duty.job? s) := by
        rw [hagenda, List.filterMap_append, hnone]
        rfl
      unfold World.life Socket.life
      rw [hjobs]
      rfl
    -- the error goes to the socket of the handler, which is one socket
    have hcaught : ∀ name value, (w.life s trail emitted).Turn
        ((({ w with agenda := rest } : World).push
          [.emit q (.error (.callback name value))]).life s trail emitted) := by
      intro name value
      rw [life_push, hdropped]
      by_cases hq : q = s
      · have hjob : [Duty.emit q (.error (.callback name value))].filterMap (Duty.job? s) =
            [.emit (.error (.callback name value))] := by
          simp [Duty.job?, hq]
        rw [hjob]
        exact .caught name value fun hmem => hprompt s (mem_jobs.1 hmem)
      · have hjob : [Duty.emit q (.error (.callback name value))].filterMap (Duty.job? s) = [] := by
          simp [Duty.job?, hq]
        rw [hjob]
        exact .rest
    simp only [perform]
    unfold throw
    rw [hunwind]
    dsimp only
    split
    · exact hcaught _ _
    · exact hcaught _ _
    · rw [life_log, hdropped]
      exact .rest
    · rw [life_log, hdropped]
      exact .rest
  | _ => exact .rest

end World

/-- What a task is to a socket, the socket allows. -/
theorem Sound.allows (hs : Sound b w) (ho : Ordered b.taken w) (hn : w.loop.next? = some (t, l)) {d : Deed}
    (hd : t.deed? w s = some d) (emitted : List Event) :
    (w.life s (b.taken.filterMap (Task.deed? w s)) emitted).Allows d := by
  have hq := queue_of_next? hn
  -- a completion finds its call in flight, and nothing of it being delivered
  have hcompletion : ∀ c, t.once? = some (.complete c) → ∀ x : Call, w.calls[c]? = some x →
      x.owner = s → (w.life s (b.taken.filterMap (Task.deed? w s)) emitted).flight = some x.batch ∧
        .resume ∉ (w.life s (b.taken.filterMap (Task.deed? w s)) emitted).agenda := by
    intro c hc x hx hown
    obtain ⟨y, hy, -, -, hmark, hnot, -⟩ := hs.completion hn hc
    obtain rfl : x = y := Option.some.inj (hx.symm.trans hy)
    subst hown
    refine ⟨?_, fun hmem => hnot (mem_jobs.1 hmem)⟩
    show (w.socket x.owner).inflight.map _ = _
    rw [hmark, Option.map_some, World.stubs, List.getElem?_map, hx]
    rfl
  cases t with
  | establish r =>
    obtain ⟨rfl, ⟨⟩⟩ := Option.ite_none_right_eq_some.1 hd
    -- no task of the socket comes before its handshake, and no call of it was issued
    refine List.filterMap_eq_nil_iff.2 fun u hu => ?_
    have hfirst := ho.first
    rw [hq, List.pairwise_append] at hfirst
    have htarget := hfirst.2.2 u hu _ List.mem_cons_self r rfl
    have hnone := (hs.flights.fresh r (by rw [hq]; exact List.mem_cons_self)).2.2
    cases u with
    | succeed c body | fail c =>
      simp only [Task.deed?]
      cases hx : w.calls[c]? with
      | none => rfl
      | some x => exact if_neg (hnone c x hx)
    | _ =>
      exact if_neg fun heq => htarget (congrArg some heq)
  | succeed c body =>
    obtain ⟨x, hx, hx'⟩ := Option.bind_eq_some_iff.1 hd
    obtain ⟨hown, ⟨⟩⟩ := Option.ite_none_right_eq_some.1 hx'
    have hflight := hcompletion c rfl x hx hown
    unfold Call.success
    cases hbatch : x.batch with
    | none =>
      rw [hbatch] at hflight
      cases decodeHandshakeResponse body <;> exact hflight
    | some batch =>
      rw [hbatch] at hflight
      cases decodeDrainResponse body <;> exact hflight
  | fail c =>
    obtain ⟨x, hx, hx'⟩ := Option.bind_eq_some_iff.1 hd
    obtain ⟨hown, ⟨⟩⟩ := Option.ite_none_right_eq_some.1 hx'
    have hflight := hcompletion c rfl x hx hown
    unfold Call.failure
    cases hbatch : x.batch with
    | none | some =>
      rw [hbatch] at hflight
      exact hflight
  | _ =>
    obtain ⟨rfl, ⟨⟩⟩ := Option.ite_none_right_eq_some.1 hd
    trivial

/-- A task that was posted is one of a socket that exists. -/
theorem Sound.lt_of_deed? (hs : Sound b w) (ho : Ordered b.taken w) (ht : t ∈ w.loop.queue) {d : Deed}
    (hd : t.deed? w s = some d) : s < w.sockets.length := by
  have hmem := List.mem_append_right b.taken ht
  cases t with
  | succeed c body | fail c =>
    obtain ⟨x, hx, hx'⟩ := Option.bind_eq_some_iff.1 hd
    obtain ⟨rfl, -⟩ := Option.ite_none_right_eq_some.1 hx'
    exact hs.flights.owned c x hx
  | establish r | send r text | close r | closeWhenDrained r | handle r slot script =>
    obtain ⟨rfl, -⟩ := Option.ite_none_right_eq_some.1 hd
    exact ho.ranged _ hmem _ rfl

/-- A task is taken and executed; `v` is the world in which the run that takes it is to go on. -/
theorem Sound.turn_execute {v : World} (hs : Sound b w) (ho : Ordered b.taken w)
    (hn : w.loop.next? = some (t, l)) (hcalls : v.calls = w.calls) (hsockets : v.sockets = w.sockets)
    {emitted : List Event} (hlife : ∀ trail, v.life s trail emitted = w.life s trail emitted)
    (hprompt : Job.emit .opened ∉ (w.life s (b.taken.filterMap (Task.deed? w s)) emitted).agenda) :
    (w.life s (b.taken.filterMap (Task.deed? w s)) emitted).Turn
      ((v.execute t).life s (b.taken.filterMap (Task.deed? w s) ++ (t.deed? w s).toList) emitted) := by
  have hmem : t ∈ w.loop.queue := by
    rw [queue_of_next? hn]
    exact List.mem_cons_self
  have hdeed : t.deed? v s = t.deed? w s := by
    cases t <;> simp only [Task.deed?, hcalls]
  cases hd : t.deed? w s with
  | none =>
    have hmark : ∀ c, (v.socket s).inflight = some c → c < v.calls.length := by
      intro c hc
      rw [World.socket_of_sockets_eq hsockets] at hc
      obtain ⟨x, hx, -⟩ := hs.flights.marked hc
      rw [hcalls]
      exact (List.getElem?_eq_some_iff.1 hx).1
    rw [Option.toList_none, List.append_nil, v.life_execute_other (hdeed.trans hd) hmark, hlife]
    exact .rest
  | some d =>
    -- the call of a completion that is taken was not aborted
    have hlive : ∀ (c : Nat) (x : Call), t = .fail c → v.calls[c]? = some x → x.aborted = false := by
      rintro c x rfl hx
      obtain ⟨y, hy, hab, -⟩ := hs.completion hn rfl
      rw [hcalls] at hx
      obtain rfl : x = y := Option.some.inj (hx.symm.trans hy)
      exact hab
    have hlt : s < v.sockets.length := by
      rw [hsockets]
      exact hs.lt_of_deed? ho hmem hd
    rw [v.life_execute (hdeed.trans hd) hlt hlive, hlife]
    exact .deed d (hs.allows ho hn hd emitted) hprompt

/-- A job is done in the life of its socket. -/
theorem World.life_discharge (w : World) (j : Job) (s : Nat) :
    (w.discharge (j.duty s)).life s trail (emitted ++ j.event?.toList) =
      (w.life s trail emitted).discharge j := by
  cases j with
  | emit event =>
    show (w.emit s event).life s trail (emitted ++ [event]) = _
    rw [life_emit]
    rfl
  | dispatch messages =>
    refine (congrArg (World.life _ s trail) (List.append_nil emitted)).trans ?_
    cases messages with
    | nil => rfl
    | cons m more =>
      show (w.push _).life s trail emitted = _
      rw [life_push]
      simp [Duty.job?, Life.discharge]
  | resume =>
    refine (congrArg (World.life _ s trail) (List.append_nil emitted)).trans ?_
    show (((w.release s).drain s).closeIfDrained s).life s trail emitted = _
    rw [life_closeIfDrained, life_drain, life_release]
    rfl
  | begin =>
    refine (congrArg (World.life _ s trail) (List.append_nil emitted)).trans ?_
    show ((w.drain s).closeIfDrained s).life s trail emitted = _
    rw [life_closeIfDrained, life_drain]
    rfl
  | closeIfClosing =>
    refine (congrArg (World.life _ s trail) (List.append_nil emitted)).trans ?_
    show (if (w.socket s).closing then w.close s else w).life s trail emitted =
      if (w.socket s).closing then (w.life s trail emitted).close else w.life s trail emitted
    split
    next hclosing =>
      have hlt : s < w.sockets.length := by
        by_contra hle
        rw [socket_of_le (Nat.le_of_not_lt hle)] at hclosing
        cases hclosing
      rw [life_close w hlt]
    next => rfl

/-- A job of one socket leaves the lives of the others as they were. -/
theorem World.life_discharge_other {r : Nat} (hr : r ≠ s) (w : World) (j : Job)
    (hmark : ∀ c, (w.socket s).inflight = some c → c < w.calls.length) :
    (w.discharge (j.duty r)).life s trail emitted = w.life s trail emitted := by
  cases j with
  | emit event => exact life_emit w r event s
  | _ =>
    exact (Only.of_works (.discharge rfl)).life_eq (Ne.symm hr) hmark

/-- A duty that is no job of a socket is not part of its life. -/
theorem World.life_tail {d : Duty} (hagenda : w.agenda = d :: rest) (hd : d.job? s = none) :
    w.life s trail emitted = ({ w with agenda := rest } : World).life s trail emitted := by
  unfold World.life Socket.life
  rw [hagenda, List.filterMap_cons, hd]
  rfl

/-- A job of a socket is done: it is a turn in the life of the socket, and the others rest. -/
theorem Sound.turn_job (hs : Sound b w) {j : Job} {r : Nat} (hagenda : w.agenda = j.duty r :: rest)
    (hprompt : ∀ r, Duty.emit r .opened ∉ rest) (s : Nat) (trail : List Deed) (emitted : List Event) :
    (w.life s trail emitted).Turn ((({ w with agenda := rest } : World).discharge (j.duty r)).life s
      trail (emitted ++ if r = s then j.event?.toList else [])) := by
  set u : World := { w with agenda := rest }
  by_cases hr : r = s
  · subst hr
    rw [if_pos rfl, World.life_discharge]
    refine .job j (rest.filterMap (Duty.job? r)) ?_ fun hmem => hprompt r (mem_jobs.1 hmem)
    show w.agenda.filterMap _ = _
    rw [hagenda, List.filterMap_cons, Duty.job?_eq_some.2 rfl]
  · have hnone : (j.duty r).job? s = none := by
      cases j <;> exact if_neg hr
    have hmark : ∀ c, (u.socket s).inflight = some c → c < u.calls.length := by
      intro c hc
      obtain ⟨x, hx, -⟩ := hs.flights.marked hc
      exact (List.getElem?_eq_some_iff.1 hx).1
    rw [if_neg hr, List.append_nil, World.life_tail hagenda hnone,
      World.life_discharge_other hr u j hmark]
    exact .rest

/-- The first duty is done: it is a job of one socket or takes a task, and all other sockets rest. -/
theorem Sound.turn_step (hs : Sound b w) (ho : Ordered b.taken w) (s : Nat) (emitted : List Event) :
    (w.life s (b.taken.filterMap (Task.deed? w s)) emitted).Turn
      (w.step.life s
        (b.taken.filterMap (Task.deed? w s) ++ (w.taking?.bind (Task.deed? w s)).toList)
        (emitted ++ (w.emitting?.bind fun o => if o.1 = s then some o.2 else none).toList)) := by
  set trail := b.taken.filterMap (Task.deed? w s)
  unfold World.step World.taking? World.emitting?
  cases hagenda : w.agenda with
  | nil =>
    simp only [Option.bind_none, Option.toList_none, List.append_nil]
    exact .rest
  | cons d rest =>
    -- openings are told at once: none waits behind the first duty
    have hprompt : ∀ r, Duty.emit r .opened ∉ rest := by
      have hall := ho.prompt
      rw [hagenda] at hall
      exact hall
    cases d using Duty.byJobs with
    | run ran inside =>
      set u : World := { w with agenda := rest }
      dsimp only [World.discharge]
      cases hn : w.loop.next? with
      | none =>
        simp only [Option.map_none, Option.bind_none, Option.toList_none, List.append_nil]
        rw [World.life_tail hagenda rfl]
        cases inside <;> exact .rest
      | some next =>
        obtain ⟨t, l⟩ := next
        set v : World := ({ u with loop := l } : World).push [.run (ran + 1) inside]
        have hlife : ∀ trail, v.life s trail emitted = w.life s trail emitted := by
          intro trail
          unfold World.life Socket.life
          rw [hagenda]
          rfl
        have hnone : Job.emit .opened ∉ (w.life s trail emitted).agenda := by
          intro hmem
          have hmem := mem_jobs.1 hmem
          rw [hagenda] at hmem
          exact hprompt s (List.mem_of_ne_of_mem Duty.noConfusion hmem)
        simp only [Option.map_some, Option.bind_none, Option.toList_none,
          List.append_nil]
        exact hs.turn_execute (v := v) ho hn rfl rfl hlife hnone
    | act r data a =>
      have hshape := hs.shape
      rw [hagenda] at hshape
      simp only [Option.bind_none, Option.toList_none, List.append_nil]
      rw [World.life_tail hagenda rfl]
      exact World.turn_perform hshape.nested.1 hshape.nested.2 hprompt r data a
    | leave r event =>
      simp only [Option.bind_none, Option.toList_none, List.append_nil]
      rw [World.life_tail hagenda rfl]
      exact .rest
    | job r j =>
      have hturn := hs.turn_job hagenda hprompt s trail emitted
      cases j with
      | emit event =>
        simp only [Job.duty, Option.bind_none, Option.toList_none, List.append_nil, Option.bind_some]
        by_cases hr : r = s
        · rw [if_pos hr] at hturn ⊢
          exact hturn
        · rw [if_neg hr] at hturn ⊢
          exact hturn
      | _ =>
        simpa only [Job.duty, Job.event?, Option.bind_none, Option.toList_none, ite_self, List.append_nil]
          using hturn

/-- Nothing was done to a socket that does not exist. -/
theorem Sound.trail_eq_nil (hs : Sound b w) (ho : Ordered b.taken w) (hlt : w.sockets.length ≤ s) :
    b.taken.filterMap (Task.deed? w s) = [] := by
  refine List.filterMap_eq_nil_iff.2 fun t ht => ?_
  have hmem := List.mem_append_left w.loop.queue ht
  cases t with
  | succeed c body | fail c =>
    simp only [Task.deed?]
    cases hx : w.calls[c]? with
    | none => rfl
    | some x => exact if_neg fun heq => absurd (hs.flights.owned c x hx) (by omega)
  | establish r | send r text | close r | closeWhenDrained r | handle r slot script =>
    exact if_neg fun heq => absurd (ho.ranged _ hmem r rfl) (by omega)

/-- A socket that is created begins its life, and the others rest. -/
theorem Sound.turn_create (hs : Sound b w) (ho : Ordered b.taken w) (o : Options) (s : Nat)
    (emitted : List Event) :
    (w.life s (b.taken.filterMap (Task.deed? w s)) emitted).Turn
      ((w.create o).life s (b.taken.filterMap (Task.deed? w s)) emitted) := by
  set trail := b.taken.filterMap (Task.deed? w s)
  have hcreated : (w.create o).life s trail emitted = (w.addSocket o.socket).life s trail emitted := by
    rw [World.create_eq]
    split <;> rfl
  have hadded : (w.addSocket o.socket).life s trail emitted =
      ((w.addSocket o.socket).socket s).life w.stubs w.agenda s trail emitted := rfl
  rw [hcreated, hadded, World.socket_addSocket]
  split
  next heq =>
    -- until now the socket was the default one, and nothing was done to it
    have hnew : w.socket s = {} := World.socket_of_le (by omega)
    have hlife : o.socket.life w.stubs w.agenda s trail emitted =
        { w.life s trail emitted with requeue := o.requeue } := by
      unfold World.life
      rw [hnew]
      rfl
    rw [hlife]
    exact .created o.requeue (hs.trail_eq_nil ho (by omega))
  next => exact .rest

/-- Every move is a turn in the life of every socket. -/
theorem turn_after {h : History} (hs : Sound h.toBooks h.world) (ho : Ordered h.taken h.world)
    (m : Move) (s : Nat) : (h.life s).Turn ((h.after m).life s) := by
  -- a move that takes no task keeps what was done, and with it the books
  have hquiet : ∀ {k : History}, h.Extends k → k.toBooks = h.toBooks →
      k.life s = k.world.life s (h.trail s) (h.occasions s) := by
    intro k e hbooks
    have htrail : k.trail s = h.trail s := by
      have hkept := e.trail (s := s) (t := none) hs (by rw [hbooks]; simp) (by simp)
      simpa using hkept
    have hoccasions : k.occasions s = h.occasions s := by rw [History.occasions, hbooks]; rfl
    rw [History.life, htrail, hoccasions]
  have hsame : ∀ {k : History}, h.Extends k → k.toBooks = h.toBooks →
      k.world.life s (h.trail s) (h.occasions s) = h.life s → (h.life s).Turn (k.life s) := by
    intro k e hbooks hlife
    rw [hquiet e hbooks, hlife]
    exact .rest
  have he := h.extends_after m
  have hmoves := h.moves_after m
  generalize h.after m = k at he hmoves ⊢
  cases hmoves with
  | idle => exact .rest
  | step =>
    have htrail : h.step.trail s =
        h.trail s ++ (h.world.taking?.bind (Task.deed? h.world s)).toList := by
      refine he.trail hs h.taken_step fun c hc => ?_
      obtain ⟨t, ht, hc⟩ := Option.bind_eq_some_iff.1 hc
      rcases h.world.grows_step with ⟨hnone, -⟩ | ⟨t', l, htake, hn, -⟩
      · cases hnone.symm.trans ht
      · cases ht.symm.trans htake
        obtain ⟨x, hx, -⟩ := hs.completion hn hc
        exact ⟨x, hx⟩
    show (h.life s).Turn (h.step.life s)
    rw [History.life, History.life, htrail, h.occasions_step s]
    exact hs.turn_step ho s (h.occasions s)
  | drive hempty =>
    refine hsame he rfl ?_
    unfold History.life World.life Socket.life
    rw [hempty]
    rfl
  | create o =>
    rw [hquiet he rfl]
    exact hs.turn_create ho o s (h.occasions s)
  | act a hw =>
    rw [hquiet he rfl]
    obtain ⟨hin, -⟩ := hs.handler hw
    exact World.turn_perform hin hs.shape.nested (ho.not_opened hin) _ _ a
  | @succeed c _ _ | @fail c =>
    refine hsame he rfl ?_
    have hstubs := h.world.stubs_modify c (fun x => { x with answered := true }) (fun _ => rfl)
      fun _ => rfl
    exact congrArg (fun stubs => (h.world.socket s).life stubs h.world.agenda s _ _) hstubs
  | post | fault | closeLoop => exact hsame he rfl rfl

/-- What every turn keeps stays as a history goes on. -/
theorem Life.kept_run {P : Life → Prop} (hturn : ∀ {l k : Life}, P l → l.Turn k → P k)
    (moves more : List Move) (h : P ((History.run moves).life s)) :
    P ((History.run (moves ++ more)).life s) := by
  induction more using List.reverseRecOn with
  | nil => simpa using h
  | append_singleton front m ih =>
    rw [← List.append_assoc, History.run_concat]
    exact hturn ih (turn_after (sound_run _) (ordered_run _) m s)

/-- What holds at first and is kept by every turn holds in every history. -/
theorem Life.holds_run {P : Life → Prop} (hfirst : P {})
    (hturn : ∀ {l k : Life}, P l → l.Turn k → P k) (moves : List Move) (s : Nat) :
    P ((History.run moves).life s) :=
  Life.kept_run hturn [] moves hfirst

end PollSocket.Socket
