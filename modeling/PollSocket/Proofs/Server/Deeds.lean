import Mathlib
import PollSocket.Exchange.Request
import PollSocket.Proofs.Server.History

set_option autoImplicit false

/-!
# What duties do

A duty takes notes, queues a message, plans other duties, answers, or changes the connections. `World.Did` lists
what a duty can do, and every duty does one of these (`did_discharge`). What steps keep is shown from this list,
without looking at each duty again. Only one kind of duty calls a handler, and it leaves a note (`World.call?`).
-/

namespace PollSocket.Server

/-- The request is a handshake: it names no session. -/
def Request.opens (r : Request) : Bool :=
  (r.header.get sessionField).isEmpty || r.header.get sessionField == nullSession

/-- The duty may be over without more: it serves no request, holds on to nothing, and has nothing to tell, to
deliver or to take. -/
def Duty.slight (w : World) : Duty → Bool
  | .serve _ => false
  | .trigger _ _ _ => false
  | .lock _ => false
  | .unlock _ => false
  | .deliver _ (_ :: _) => false
  | .take c _ => (w.conn? c).isNone
  | .wait c _ _ => (w.conn? c).isNone
  | _ => true

/-- The duty sets the outcome of its thread. -/
def Duty.concludes (x : Thread) : Duty → Bool
  | .send _ _ => true
  | .shutdown (_ :: _) => x.cancelled
  | _ => false

/-- What goes on with a take. -/
def Duty.ofTake (c received : Nat) : Poll.Take → Duty
  | .done messages => .reply c received messages
  | .waiting deadline => .wait c received deadline

/-- What a duty has its thread, as `x`, do next. -/
inductive Duty.Plan (w : World) (x : Thread) : Duty → List Duty → Prop
  | reacts (event : String) (c : Nat) (data : String) :
    Plan w x (.trigger event c data)
      ((w.handlers.filter fun h => h.event == event).map fun h => .react event h.reaction c data)
  | script (event : String) (number : Nat) (acts : List Act) (c : Nat) (data : String) :
    Plan w x (.react event (.script number acts) c data) (acts.map (.act number c data))
  | relays (event : String) (c : Nat) (data : String) :
    Plan w x (.react event .relay c data) [.broadcast w.onlineConns data]
  | broadcasts (number c : Nat) (data text : String) (echo : Bool) :
    Plan w x (.act number c data (.broadcast text echo))
      [.broadcast w.onlineConns (if echo then text ++ data else text)]
  | closes (number c : Nat) (data : String) : Plan w x (.act number c data .close) [.close c]
  | branches (number c : Nat) (data expected : String) (script : List Act) :
    Plan w x (.act number c data (.whenData expected script)) (script.map (.act number c data))
  | tells (c : Nat) (m : String) (more : List String) :
    Plan w x (.deliver c (m :: more)) [.trigger "message" c m, .deliver c more]
  | admits {r : Request} {c : Nat} {q : DrainRequest} (hopens : r.opens = false)
    (hlive : w.liveSession? (r.header.get sessionField) = some c)
    (hq : decodeDrainRequest? (r.body.take maxBody) = some q) :
    Plan w x (.serve r) [.lock c, .deliver c q.messages, .take c q.messages.length, .unlock c]
  | others (c : Nat) (more : List Nat) (text : String) :
    Plan w x (.broadcast (c :: more) text) [.broadcast more text]
  | shutsDown (c : Nat) (more : List Nat) (hcancelled : x.cancelled = false) :
    Plan w x (.shutdown (c :: more)) [.close c, .shutdown more]
  | skips (c : Nat) (more : List Nat) : Plan w x (.expire (c :: more)) [.expire more]
  | expires (c : Nat) (more : List Nat) : Plan w x (.expire (c :: more)) [.close c, .expire more]

/-- A duty of a thread, as `x`, takes from the queue `q` of connection `c`: what becomes of the queue, and how far
the take has come. -/
inductive Duty.Takes (w : World) (x : Thread) (q : Poll.Queue) (c received : Nat) :
    Duty → Poll.Queue × Poll.Take → Prop
  | starts : Takes w x q c received (.take c received) (q.startTake w.now x.cancelled w.settings.pollTimeout)
  | resumes (deadline : Int) : Takes w x q c received (.wait c received deadline)
      (q.resumeTake w.now x.cancelled deadline x.preferred)

/-- The note is one of a call. -/
def Note.isCall : Note → Bool
  | .called _ _ _ _ => true
  | _ => false

namespace World

/-- Calls of handlers, oldest first. -/
def calls (w : World) : List Note := w.journal.filter Note.isCall

theorem calls_note {n : Note} (hn : n.isCall = false) (w : World) : (w.note n).calls = w.calls := by
  rw [calls, note, List.filter_append, List.filter_singleton, hn]
  exact List.append_nil _

/-- The call of a handler that a duty is. -/
def call? (w : World) : Duty → Option Note
  | .react event (.script number _) c data => (w.conn? c).map fun y => .called number event y.id data
  | _ => none

/-- Worlds that are reached from `w` with notes, of which `call` is the only one of a call, and by sending `message`
if there is one. -/
inductive Written (w : World) : Option (Nat × String) → Option Note → World → Prop
  | refl : Written w none none w
  | sent (c : Nat) (text : String) : Written w (some (c, text)) none (w.sendTo c text).1
  | called (n : Note) (hn : n.isCall = true) : Written w none (some n) (w.note n)
  | note {message : Option (Nat × String)} {call : Option Note} {v : World} (h : Written w message call v) {n : Note}
    (hn : n.isCall = false) : Written w message call (v.note n)

theorem Written.sendFor (w : World) (number c : Nat) (text : String) :
    w.Written (some (c, text)) none (w.sendFor number c text) := by
  unfold World.sendFor
  dsimp only
  split
  · exact .sent c text
  · exact .note (.sent c text) rfl

theorem taken_eq (w : World) (t c received : Nat) (r : Poll.Queue × Poll.Take) :
    w.taken t c received r =
      (w.updateConn c fun y => { y with queue := r.1 }).push t [.ofTake c received r.2] := by
  unfold taken
  cases r.2 <;> rfl

/-- The connection that a handshake opens. -/
def newConn (w : World) (r : Request) : Conn :=
  { id := w.ids.draw.1
    protocol :=
      if (r.header.get protocolField).isEmpty then defaultProtocol else r.header.get protocolField
    queue :=
      { session := w.ids.draw.1, limit := w.settings.bufferSize,
        patience := w.settings.sessionTimeout, lastActivity := w.now } }

/-- Where a duty `d` of thread `t`, as `x`, that has been taken off the agenda leads from `w`. -/
inductive Did (w : World) (t : Nat) (x : Thread) : Duty → World → Prop
  /-- Nothing is left to do. -/
  | passes {d : Duty} {v : World} (hd : d.slight w = true) (hv : w.Written (w.sends? d) (w.call? d) v) : Did w t x d v
  | plans {d : Duty} {v : World} {pushed : List Duty} (hplan : d.Plan w x pushed)
    (hv : w.Written (w.sends? d) (w.call? d) v) : Did w t x d (v.push t pushed)
  | concludes {d : Duty} {v : World} (hd : d.concludes x = true) (hv : w.Written (w.sends? d) (w.call? d) v)
    (outcome : Except Failure Unit) : Did w t x d (v.updateThread t fun y => { y with outcome := outcome })
  | refuses {r : Request} {status : Nat} (hstatus : isSuccess status = false) (limiter : Option Limiter)
    {journal : List Note} (hcalls : journal.filter Note.isCall = w.calls) (header : Header) (text : String) :
    Did w t x (.serve r) ({ w with limiter := limiter, journal := journal }.refuse t status header text)
  | opens {r : Request} (hopens : r.opens = true) (limiter : Option Limiter) {journal : List Note}
    (hcalls : journal.filter Note.isCall = w.calls) :
    Did w t x (.serve r)
      ({ w with
        limiter := limiter
        journal := journal
        ids := w.ids.draw.2
        conns := w.conns ++ [w.newConn r]
        sessions := putEntry w.ids.draw.1 w.conns.length w.sessions
        online := putEntry w.ids.draw.1 w.conns.length w.online }.push t
        [.trigger "connect" w.conns.length "", .greet w.conns.length])
  | greets {c : Nat} {y : Conn} (hy : w.conn? c = some y) {journal : List Note}
    (hcalls : journal.filter Note.isCall = w.calls) :
    Did w t x (.greet c) ({ w with journal := journal }.respond t 200
      (({} : Header).set "Content-Type" jsonContent) (handshakeResponseBody y.id))
  | replies (c received : Nat) (messages : List String) {journal : List Note}
    (hcalls : journal.filter Note.isCall = w.calls) :
    Did w t x (.reply c received (some messages)) ({ w with journal := journal }.respond t 200
      (({} : Header).set "Content-Type" jsonContent) (drainResponseBody messages))
  | locks (c : Nat) : Did w t x (.lock c) (w.updateConn c fun y => { y with holder := some t })
  | unlocks (c : Nat) : Did w t x (.unlock c) (w.updateConn c fun y => { y with holder := none })
  | takes {d : Duty} {c received : Nat} {y : Conn} {r : Poll.Queue × Poll.Take} (hy : w.conn? c = some y)
    (hd : d.Takes w x y.queue c received r) :
    Did w t x d ((w.updateConn c fun z => { z with queue := r.1 }).push t [.ofTake c received r.2])
  | closes {c : Nat} {y : Conn} (hy : w.conn? c = some y) (hconnected : y.connected = true)
    {journal : List Note} (hcalls : journal.filter Note.isCall = w.calls) :
    Did w t x (.close c)
      ({ w with
        journal := journal
        conns := w.conns.modify c fun z => { z with connected := false, queue := z.queue.close }
        sessions := dropEntry y.id w.sessions
        online := dropEntry y.id w.online }.push t [.trigger "disconnect" c ""])
  | registers (number c : Nat) (data event : String) (script : List Act) :
    Did w t x (.act number c data (.handle event script)) (w.registerScript event script)
  | throws (number c : Nat) (data : String) (value : Thrown) :
    Did w t x (.act number c data (.throw value)) (w.throw t value)

section Discharge

variable (w : World) (t : Nat) (x : Thread)

theorem did_perform (number c : Nat) (data : String) (a : Act) :
    w.Did t x (.act number c data a) (w.perform t number c data a) := by
  cases a with
  | send text echo => exact .passes rfl (.sendFor w number c _)
  | sendTo id text echo =>
    refine .passes rfl ?_
    rw [perform, sends?]
    cases w.seen? id with
    | none => exact .note .refl rfl
    | some d => exact .sendFor w number d _
  | broadcast text echo => exact .plans (.broadcasts number c data text echo) .refl
  | close => exact .plans (.closes number c data) .refl
  | count | get => exact .passes rfl (.note .refl rfl)
  | info =>
    rw [perform]
    cases w.conn? c with
    | none => exact .passes rfl .refl
    | some y => exact .passes rfl (.note .refl rfl)
  | handle event script => exact .registers number c data event script
  | whenData expected script =>
    rw [perform]
    split
    · exact .plans (.branches number c data expected script) .refl
    · exact .passes rfl .refl
  | throw value => exact .throws number c data value

theorem did_react (event : String) (c : Nat) (data : String) (r : Reaction) :
    w.Did t x (.react event r c data) (w.react t event c data r) := by
  cases r with
  | script number acts =>
    have hcall : w.call? (.react event (.script number acts) c data) =
        (w.conn? c).map fun y => .called number event y.id data := rfl
    rw [react]
    cases hy : w.conn? c with
    | none =>
      rw [hy] at hcall
      exact .passes rfl (hcall ▸ .refl)
    | some y =>
      rw [hy] at hcall
      exact .plans (.script event number acts c data) (hcall ▸ .called _ rfl)
  | welcome | farewell =>
    rw [react]
    cases w.conn? c with
    | none => exact .passes rfl .refl
    | some y => exact .passes rfl (.note .refl rfl)
  | echo =>
    have hsent : w.Written (some (c, data)) none (w.sendTo c data).1 := .sent c data
    rw [react]
    dsimp only
    split
    · exact .passes rfl (.note hsent rfl)
    · exact .passes rfl hsent
  | relay => exact .plans (.relays event c data) .refl

theorem did_closeConn (c : Nat) : w.Did t x (.close c) (w.closeConn t c) := by
  unfold closeConn
  cases hy : w.conn? c with
  | none => exact .passes rfl .refl
  | some y =>
    dsimp only
    split
    next hconnected => exact .closes hy hconnected ((calls_note rfl _).trans (calls_note rfl w))
    next => exact .passes rfl .refl

theorem did_handshake {r : Request} (hopens : r.opens = true) : w.Did t x (.serve r) (w.handshake t r) := by
  cases hlimiter : w.limiter with
  | none =>
    simp only [handshake, hlimiter]
    exact .opens hopens none ((calls_note rfl _).trans (calls_note rfl _))
  | some l =>
    simp only [handshake, hlimiter]
    cases (l.allow w.now).2 with
    | false => exact .refuses rfl _ rfl _ _
    | true => exact .opens hopens _ ((calls_note rfl _).trans (calls_note rfl _))

theorem did_drain {r : Request} (hopens : r.opens = false) :
    w.Did t x (.serve r) (w.drain t (r.header.get sessionField) r.body) := by
  unfold drain
  split
  · exact .refuses rfl _ rfl _ _
  next c hlive =>
    split
    · exact .refuses rfl _ rfl _ _
    next q hq =>
      split
      · exact .refuses rfl _ rfl _ _
      · exact .plans (.admits hopens hlive hq) .refl

theorem did_serve (r : Request) : w.Did t x (.serve r) (w.serve t r) := by
  unfold serve
  split
  · -- the refusal of an upgrade is recorded besides
    have hstatus : isSuccess (upgradeRefusal r.method r.header).status = false := by
      cases upgradeRefusal r.method r.header <;> decide
    have hcalls : (w.refuseUpgrade t r).calls = w.calls := calls_note rfl _
    exact .refuses hstatus w.limiter hcalls _ _
  · split
    · exact .refuses rfl _ rfl _ _
    · dsimp only
      split
      next hopens => exact w.did_handshake t x hopens
      next hopens => exact w.did_drain t x (Bool.eq_false_iff.2 hopens)

/-- What is written as an answer is noted if it does not arrive. -/
theorem respondJson_eq (body : List UInt8) : ∃ journal, journal.filter Note.isCall = w.calls ∧
    w.respondJson t body =
      { w with journal := journal }.respond t 200 (({} : Header).set "Content-Type" jsonContent) body := by
  unfold respondJson
  dsimp only
  split
  · split
    · exact ⟨(w.trace "Server: error writing response: broken pipe").journal, calls_note rfl w, rfl⟩
    · exact ⟨w.journal, rfl, rfl⟩
  · exact ⟨w.journal, rfl, rfl⟩

/-- Every duty does one of these. -/
theorem did_discharge (d : Duty) : w.Did t x d (w.discharge t x d) := by
  cases d with
  | serve r => exact w.did_serve t x r
  | trigger event c data => exact .plans (.reacts event c data) .refl
  | react event r c data => exact w.did_react t x event c data r
  | act number c data a => exact w.did_perform t x number c data a
  | greet c =>
    rw [discharge]
    cases hy : w.conn? c with
    | none => exact .passes rfl .refl
    | some y =>
      obtain ⟨journal, hcalls, heq⟩ := w.respondJson_eq t (handshakeResponseBody y.id)
      dsimp only
      rw [heq]
      exact .greets hy hcalls
  | lock c => exact .locks c
  | unlock c => exact .unlocks c
  | deliver c messages =>
    cases messages with
    | nil => exact .passes rfl .refl
    | cons m more => exact .plans (.tells c m more) .refl
  | take c received =>
    rw [discharge]
    cases hy : w.conn? c with
    | none => exact .passes (by simp [Duty.slight, hy]) .refl
    | some y =>
      dsimp only
      rw [taken_eq]
      exact .takes hy .starts
  | wait c received deadline =>
    rw [discharge]
    cases hy : w.conn? c with
    | none => exact .passes (by simp [Duty.slight, hy]) .refl
    | some y =>
      dsimp only
      rw [taken_eq]
      exact .takes hy (.resumes deadline)
  | reply c received messages =>
    rw [discharge, reply]
    cases w.conn? c with
    | none => exact .passes rfl .refl
    | some y =>
      cases messages with
      | none => exact .passes rfl (.note .refl rfl)
      | some messages =>
        obtain ⟨journal, hcalls, heq⟩ := (w.log .debug "drain" [("session", .text y.id), ("in", .number received),
          ("out", .number messages.length)]).respondJson_eq t (drainResponseBody messages)
        dsimp only
        rw [heq]
        exact .replies c received messages (hcalls.trans (calls_note rfl w))
  | send c text => exact .concludes rfl (.sent c text) _
  | broadcast cs text =>
    cases cs with
    | nil => exact .passes rfl .refl
    | cons c more =>
      have hsent : w.Written (some (c, text)) none (w.sendTo c text).1 := .sent c text
      rw [discharge]
      dsimp only
      split
      · exact .plans (.others c more text) (.note hsent rfl)
      · exact .plans (.others c more text) hsent
  | close c => exact w.did_closeConn t x c
  | shutdown cs =>
    cases cs with
    | nil => exact .passes rfl .refl
    | cons c more =>
      rw [discharge]
      split
      next hcancelled =>
        have hconcludes : (Duty.shutdown (c :: more)).concludes x = true := hcancelled
        exact .concludes hconcludes .refl _
      next hcancelled => exact .plans (.shutsDown c more (Bool.eq_false_iff.2 hcancelled)) .refl
  | expire cs =>
    cases cs with
    | nil => exact .passes rfl .refl
    | cons c more =>
      rw [discharge]
      cases w.conn? c with
      | none => exact .plans (.skips c more) .refl
      | some y => exact .plans (.expires c more) (.note .refl rfl)

end Discharge

end World

end PollSocket.Server
