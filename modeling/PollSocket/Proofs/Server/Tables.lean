import PollSocket.Proofs.Server.Courses

set_option autoImplicit false

/-!
# Connections and tables, step by step

Of a connection only its face matters here: its id, whether it is connected, whether its queue is closed,
and who holds it. A step of a thread leaves all faces and both tables as they are, unless it opens a
connection, closes one, takes hold of one, lets go of one or throws. `World.Does` says so once for all
duties, together with what the thread has left to do, and `World.Next.steps` says that every step is one of these.
-/

namespace PollSocket.Poll.Queue

variable (q : Queue)

theorem closed_write (message : String) : (q.write message).1.closed = q.closed := by
  rcases q.write_cases message with ⟨f, hf⟩ | hf <;> rw [hf]

end PollSocket.Poll.Queue

namespace PollSocket.Server

/-! ## Faces -/

/-- What a connection shows besides its protocol and its messages. -/
structure Face where
  id : String
  connected : Bool
  closed : Bool
  holder : Option Nat
  deriving DecidableEq

def Conn.face (x : Conn) : Face := ⟨x.id, x.connected, x.queue.closed, x.holder⟩

/-- The face of a connection that is closed now. -/
def Face.shut (f : Face) : Face := { f with connected := false, closed := true }

/-- The face of a connection once thread `t` has come to its end. -/
def Face.release (t : Nat) (f : Face) : Face := if f.holder = some t then { f with holder := none } else f

namespace World

def faces (w : World) : List Face := w.conns.map Conn.face

theorem getElem?_faces (w : World) (c : Nat) : w.faces[c]? = (w.conn? c).map Conn.face := by
  rw [faces, List.getElem?_map]
  rfl

theorem length_faces (w : World) : w.faces.length = w.conns.length := List.length_map _

theorem idOf?_eq_face (w : World) (c : Nat) : w.idOf? c = w.faces[c]?.map Face.id := by
  rw [getElem?_faces, Option.map_map]
  rfl

theorem faces_updateConn (w : World) (c : Nat) {f : Conn → Conn} {g : Face → Face}
    (hface : ∀ y, w.conn? c = some y → (f y).face = g y.face) :
    (w.updateConn c f).faces = w.faces.modify c g := by
  refine List.ext_getElem? fun d => ?_
  rw [getElem?_faces, conn?_updateConn, List.getElem?_modify, getElem?_faces]
  by_cases hd : d = c
  · subst hd
    cases hy : w.conn? d with
    | none => simp
    | some y => simp [hface y hy]
  · simp [hd, Ne.symm hd]

/-- Faces and tables stay as they are. -/
structure Steady (w v : World) : Prop where
  faces : v.faces = w.faces
  sessions : v.sessions = w.sessions
  online : v.online = w.online

namespace Steady

variable {w v u : World}

theorem refl (w : World) : w.Steady w := ⟨rfl, rfl, rfl⟩

theorem trans (h : w.Steady v) (k : v.Steady u) : w.Steady u :=
  ⟨k.faces.trans h.faces, k.sessions.trans h.sessions, k.online.trans h.online⟩

/-- Whatever is not about connections. -/
theorem of_conns_eq (hconns : v.conns = w.conns) (hsessions : v.sessions = w.sessions)
    (honline : v.online = w.online) : w.Steady v :=
  ⟨by rw [World.faces, hconns, World.faces], hsessions, honline⟩

theorem note (w : World) (n : Note) : w.Steady (w.note n) := of_conns_eq rfl rfl rfl

theorem updateThread (w : World) (t : Nat) (f : Thread → Thread) : w.Steady (w.updateThread t f) :=
  of_conns_eq rfl rfl rfl

/-- It does not matter that a duty is taken off the agenda first. -/
theorem of_pop {t : Nat} {rest : List Duty} (h : (w.pop t rest).Steady v) : w.Steady v :=
  ⟨h.faces, h.sessions, h.online⟩

/-- The queue of a connection changes. -/
theorem queue (w : World) {c : Nat} {y : Conn} (hy : w.conn? c = some y) {q : Poll.Queue}
    (hq : q.closed = y.queue.closed) : w.Steady (w.updateConn c fun x => { x with queue := q }) := by
  refine ⟨?_, rfl, rfl⟩
  have hsame : ∀ x, w.conn? c = some x → ({ x with queue := q } : Conn).face = id x.face := by
    intro x hx
    rw [Option.some.inj (hx.symm.trans hy)]
    simp [Conn.face, hq]
  rw [faces_updateConn w c hsame, List.modify_id]

theorem sendTo (w : World) (c : Nat) (text : String) : w.Steady (w.sendTo c text).1 := by
  unfold World.sendTo
  split
  · exact refl w
  next y hy =>
    split
    · exact queue w hy (y.queue.closed_write text)
    · exact note w _

theorem written {message : Option (Nat × String)} {call : Option Note} (h : w.Written message call v) :
    w.Steady v := by
  induction h with
  | refl => exact refl w
  | sent c text => exact sendTo w c text
  | called n => exact note w n
  | note _ _ ih => exact ih.trans (note _ _)

end Steady

end World

/-! ## What a duty plans -/

/-- The event other than a message that a duty tells of, with its connection. -/
def Duty.event? : Duty → Option (Nat × String)
  | .trigger event c _ => if event = "message" then none else some (c, event)
  | _ => none

/-- The duty takes hold of a connection or lets go of one. -/
def Duty.grips : Duty → Bool
  | .lock _ => true
  | .unlock _ => true
  | _ => false

/-- The duty is part of an event: handlers are told, they react and act, or an act has to be done. -/
def Duty.handled : Duty → Bool
  | .trigger event _ _ => event != "message"
  | .react _ _ _ _ => true
  | .act _ _ _ _ => true
  | .broadcast _ _ => true
  | .close _ => true
  | _ => false

mutual

/-- Bound on the steps of an act, with `n` connections online. -/
def Act.weight (n : Nat) : Act → Nat
  | .broadcast _ _ => n + 2
  | .close => 2
  | .whenData _ script => weightOfScript n script + 1
  | _ => 1

/-- Bound on the steps of a script. -/
def weightOfScript (n : Nat) : List Act → Nat
  | [] => 0
  | a :: more => a.weight n + weightOfScript n more

end

/-- Bound on the steps that a duty leads to before the next event. -/
def Duty.weight (n : Nat) : Duty → Nat
  | .react _ (.script _ acts) _ _ => weightOfScript n acts + 1
  | .react _ .relay _ _ => n + 2
  | .act _ _ _ a => a.weight n
  | .broadcast cs _ => cs.length + 1
  | .shutdown cs => 2 * cs.length + 1
  | .expire cs => 2 * cs.length + 1
  | _ => 1

theorem total_weight_acts (n number c : Nat) (data : String) (acts : List Act) :
    total (Duty.weight n) (acts.map (.act number c data)) = weightOfScript n acts := by
  induction acts with
  | nil => rfl
  | cons a more ih => simp only [List.map_cons, total_cons, ih, Duty.weight, weightOfScript]

/-- What a duty plans that opens and closes nothing: no event but a message, and what belongs to an event
leads to nothing else. Whoever is to let go of a connection first takes hold of it.
Before the next event it is a matter of less and less. -/
structure Duty.Leads (w : World) (d : Duty) (pushed : List Duty) : Prop where
  quiet : ∀ e ∈ pushed, e.event? = none
  held : ∀ c, .unlock c ∈ pushed → pushed.head? = some (.lock c)
  handled : d.handled = true → ∀ e ∈ pushed, e.handled = true
  light : ∀ n, w.online.length ≤ n → d.side = true → d.isTrigger = false →
    total (Duty.weight n) pushed < d.weight n

theorem Duty.weight_pos (n : Nat) (d : Duty) : 0 < d.weight n := by
  cases d with
  | act number c data a => cases a <;> simp [Duty.weight, Act.weight]
  | react event r c data => cases r <;> simp [Duty.weight]
  | _ => simp [Duty.weight]

namespace Duty.Leads

variable {w : World} {d e : Duty}

theorem nothing (w : World) (d : Duty) : d.Leads w [] where
  quiet := by simp
  held := by simp
  handled := by simp
  light n _ _ _ := d.weight_pos n

/-- One duty is planned that is no event. -/
theorem single (hquiet : e.event? = none) (hheld : e.grips = false)
    (hhandled : d.handled = true → e.handled = true)
    (hlight : ∀ n, w.online.length ≤ n → d.side = true → d.isTrigger = false →
      e.weight n < d.weight n) : d.Leads w [e] where
  quiet := by simpa using hquiet
  held c hc := by
    rw [← List.mem_singleton.1 hc] at hheld
    cases hheld
  handled := by simpa using hhandled
  light := by simpa using hlight

/-- The acts of a script are planned. -/
theorem acts (number c : Nat) (data : String) (script : List Act)
    (hlight : ∀ n, d.side = true → d.isTrigger = false → weightOfScript n script < d.weight n) :
    d.Leads w (script.map (.act number c data)) where
  quiet := by simp [Duty.event?]
  held := by simp
  handled _ := by simp [Duty.handled]
  light n _ hside htrigger := by
    rw [total_weight_acts]
    exact hlight n hside htrigger

end Duty.Leads

theorem Duty.Plan.leads {w : World} {t : Nat} {x : Thread} {d : Duty} {rest pushed : List Duty}
    (h : d.Plan (w.pop t rest) x pushed) : d.Leads w pushed := by
  cases h with
  | reacts event c data =>
    refine ⟨?_, ?_, ?_, ?_⟩
    · intro e he
      obtain ⟨h, -, rfl⟩ := List.mem_map.1 he
      rfl
    · intro c' hc'
      obtain ⟨h, -, hreact⟩ := List.mem_map.1 hc'
      cases hreact
    · intro _ e he
      obtain ⟨h, -, rfl⟩ := List.mem_map.1 he
      rfl
    · intro _ _ _ htrigger
      cases htrigger
  | script _ number acts c data => exact .acts number c data acts fun n _ _ => by simp [Duty.weight]
  | branches number c data _ script =>
    exact .acts number c data script fun n _ _ => by simp [Duty.weight, Act.weight]
  | relays | broadcasts =>
    refine .single rfl rfl (fun _ => rfl) fun n (hn : (w.pop t rest).online.length ≤ n) _ _ => ?_
    simp only [Duty.weight, Act.weight, World.onlineConns, List.length_map]
    omega
  | closes | others => exact .single rfl rfl (fun _ => rfl) fun n _ _ _ => by simp [Duty.weight, Act.weight]
  | tells | admits =>
    refine ⟨by simp [Duty.event?], by simp, ?_, ?_⟩
    · rintro ⟨⟩
    · intro _ _ hside
      cases hside
  | skips =>
    refine .single rfl rfl ?_ fun n _ _ _ => ?_
    · rintro ⟨⟩
    · simp only [Duty.weight, List.length_cons]
      omega
  | shutsDown | expires =>
    refine ⟨by simp [Duty.event?], by simp, ?_, ?_⟩
    · rintro ⟨⟩
    · intro n _ _ _
      simp only [total_cons, total_nil, Duty.weight, List.length_cons]
      omega

theorem Duty.Plan.grips {w : World} {x : Thread} {d : Duty} {pushed : List Duty} (h : d.Plan w x pushed) :
    d.grips = false := by
  cases h <;> rfl

theorem Duty.grips_of_slight {w : World} {d : Duty} (h : d.slight w = true) : d.grips = false := by
  cases d with
  | lock | unlock => cases h
  | _ => rfl

theorem Duty.grips_of_concludes {x : Thread} {d : Duty} (h : d.concludes x = true) : d.grips = false := by
  cases d with
  | lock | unlock => cases h
  | _ => rfl

/-! ## What a step does -/

/-- What a thread keeps when it does a duty. -/
structure Thread.Keeps (x : Thread) (d : Duty) (z : Thread) : Prop where
  cancelled : z.cancelled = x.cancelled
  outcome : d.concludes x = false → z.outcome = x.outcome

namespace World

/-- What a step of thread `t` does, whose first duty is `d`: it goes from `w` to `v`, and thread `x`,
which has `rest` left after the duty, to `z`. -/
inductive Does (w : World) (t : Nat) (x : Thread) (d : Duty) (rest : List Duty) (z : Thread) (v : World) :
    Prop
  | plans {pushed : List Duty} (hgrips : d.grips = false) (hleads : d.Leads w pushed)
    (hagenda : z.agenda = pushed ++ rest) (hthrown : z.thrown = x.thrown) (hsteady : w.Steady v)
  /-- A handshake opens a connection. -/
  | opens {r : Request} (hd : d = .serve r)
    (hagenda : z.agenda = .trigger "connect" w.conns.length "" :: .greet w.conns.length :: rest)
    (hthrown : z.thrown = x.thrown) (hfaces : v.faces = w.faces ++ [⟨w.ids.draw.1, true, false, none⟩])
    (hsessions : v.sessions = putEntry w.ids.draw.1 w.conns.length w.sessions)
    (honline : v.online = putEntry w.ids.draw.1 w.conns.length w.online)
  | closes {c : Nat} {y : Conn} (hd : d = .close c) (hy : w.conn? c = some y)
    (hconnected : y.connected = true) (hagenda : z.agenda = .trigger "disconnect" c "" :: rest)
    (hthrown : z.thrown = x.thrown) (hfaces : v.faces = w.faces.modify c Face.shut)
    (hsessions : v.sessions = dropEntry y.id w.sessions) (honline : v.online = dropEntry y.id w.online)
  | locks {c : Nat} (hd : d = .lock c) (hagenda : z.agenda = rest) (hthrown : z.thrown = x.thrown)
    (hfaces : v.faces = w.faces.modify c fun f => { f with holder := some t })
    (hsessions : v.sessions = w.sessions) (honline : v.online = w.online)
  | unlocks {c : Nat} (hd : d = .unlock c) (hagenda : z.agenda = rest) (hthrown : z.thrown = x.thrown)
    (hfaces : v.faces = w.faces.modify c fun f => { f with holder := none })
    (hsessions : v.sessions = w.sessions) (honline : v.online = w.online)
  | throws {number c : Nat} {data : String} {value : Thrown}
    (hd : d = .act number c data (.throw value)) (hagenda : z.agenda = [])
    (hthrown : z.thrown = some value) (hfaces : v.faces = w.faces.map (Face.release t))
    (hsessions : v.sessions = w.sessions) (honline : v.online = w.online)

/-- The step of thread `t`, as `x`, that does `d` and leads to `v`. -/
def Steps (w : World) (t : Nat) (x : Thread) (d : Duty) (rest : List Duty) (v : World) : Prop :=
  ∃ z, v.threads[t]? = some z ∧ x.Keeps d z ∧ w.Does t x d rest z v

variable {w : World} {t : Nat} {x : Thread} {d : Duty} {rest : List Duty}

namespace Steps

variable {v : World}

/-- The duty has planned something. -/
theorem push (hsteady : (w.pop t rest).Steady v) (hv : v.threads[t]? = some { x with agenda := rest })
    {pushed : List Duty} (hgrips : d.grips = false) (hleads : d.Leads w pushed) :
    w.Steps t x d rest (v.push t pushed) :=
  ⟨_, threads_push hv pushed, ⟨rfl, fun _ => rfl⟩,
    .plans hgrips hleads rfl rfl (hsteady.of_pop.trans (.updateThread v t _))⟩

/-- The duty is done, and may have answered. -/
theorem done (hsteady : (w.pop t rest).Steady v) {answer : Answer}
    (hv : v.threads[t]? = some { x with agenda := rest, answer := answer }) (hgrips : d.grips = false) :
    w.Steps t x d rest v :=
  ⟨_, hv, ⟨rfl, fun _ => rfl⟩, .plans hgrips (.nothing w d) rfl rfl hsteady.of_pop⟩

/-- The duty has set the outcome. -/
theorem concluded (hsteady : (w.pop t rest).Steady v) (hv : v.threads[t]? = some { x with agenda := rest })
    (hgrips : d.grips = false) (hd : d.concludes x = true) (outcome : Except Failure Unit) :
    w.Steps t x d rest (v.updateThread t fun y => { y with outcome := outcome }) := by
  refine ⟨_, threads_updateThread_self hv _, ⟨rfl, ?_⟩,
    .plans hgrips (.nothing w d) rfl rfl (hsteady.of_pop.trans (.updateThread v t _))⟩
  intro hnot
  cases hd.symm.trans hnot

end Steps

section Discharge

variable (hx : w.threads[t]? = some x)
include hx

/-- A take goes on to the answer or waits. -/
theorem steps_taken {c received : Nat} {y : Conn} (hy : (w.pop t rest).conn? c = some y)
    {r : Poll.Queue × Poll.Take} (hd : d.Takes (w.pop t rest) x y.queue c received r) :
    w.Steps t x d rest
      (((w.pop t rest).updateConn c fun z => { z with queue := r.1 }).push t [.ofTake c received r.2]) := by
  obtain ⟨_, hbrings⟩ := hd.brings
  have hplain : d.grips = false ∧ d.handled = false ∧ d.side = false := by cases hd <;> exact ⟨rfl, rfl, rfl⟩
  obtain ⟨hgrips, hhandled, hside⟩ := hplain
  refine .push (.queue _ hy hbrings.closed) (threads_pop hx rest) hgrips (.single ?_ ?_ ?_ ?_)
  · cases r.2 <;> rfl
  · cases r.2 <;> rfl
  · rw [hhandled]
    rintro ⟨⟩
  · intro _ _ hd
    cases hside.symm.trans hd

/-- A duty that has been taken off the agenda. -/
theorem Did.steps {v : World} (h : (w.pop t rest).Did t x d v) : w.Steps t x d rest v := by
  have hpop := threads_pop hx rest
  cases h with
  | passes hd hv => exact .done (.written hv) (hv.thread hpop) (Duty.grips_of_slight hd)
  | plans hplan hv => exact .push (.written hv) (hv.thread hpop) hplan.grips hplan.leads
  | concludes hd hv outcome =>
    exact .concluded (.written hv) (hv.thread hpop) (Duty.grips_of_concludes hd) hd outcome
  | refuses | greets | replies => exact .done (.of_conns_eq rfl rfl rfl) (threads_respond hpop _ _ _) rfl
  | opens =>
    refine ⟨_, threads_push hpop _, ⟨rfl, fun _ => rfl⟩, .opens rfl rfl rfl ?_ rfl rfl⟩
    show (w.conns ++ [_]).map Conn.face = w.conns.map Conn.face ++ _
    rw [List.map_append]
    rfl
  | locks c =>
    exact ⟨_, hpop, ⟨rfl, fun _ => rfl⟩, .locks rfl rfl rfl (faces_updateConn w c fun _ _ => rfl) rfl rfl⟩
  | unlocks c =>
    exact ⟨_, hpop, ⟨rfl, fun _ => rfl⟩, .unlocks rfl rfl rfl (faces_updateConn w c fun _ _ => rfl) rfl rfl⟩
  | takes hy hd => exact steps_taken hx hy hd
  | @closes c y hy hconnected =>
    refine ⟨_, threads_push hpop _, ⟨rfl, fun _ => rfl⟩, .closes rfl hy hconnected rfl rfl ?_ rfl rfl⟩
    exact faces_updateConn w c fun _ _ => rfl
  | registers => exact .done (.of_conns_eq rfl rfl rfl) hpop rfl
  | throws number c data value =>
    refine ⟨_, threads_throw hpop value, ⟨rfl, fun _ => rfl⟩, .throws rfl rfl rfl ?_ rfl rfl⟩
    show (w.conns.map _).map Conn.face = (w.conns.map Conn.face).map _
    rw [List.map_map, List.map_map]
    refine List.map_congr_left fun y _ => ?_
    by_cases hy : y.holder = some t <;> simp [Conn.face, Face.release, hy]

end Discharge

/-- Every step of a thread is one of these. -/
theorem Next.steps (hx : w.Next t x d rest) : w.Steps t x d rest (w.stepThread t) := by
  rw [hx.step_eq]
  exact ((w.pop t rest).did_discharge t x d).steps hx.thread

/-- What a step of thread `t` that does `d`, and has `z` come of the thread, makes of the face of connection `c`. -/
inductive Alters (t : Nat) (d : Duty) (z : Thread) (c : Nat) : Option Face → Option Face → Prop
  | same (o : Option Face) : Alters t d z c o o
  | opened {id : String} : Alters t d z c none (some ⟨id, true, false, none⟩)
  | closed {f : Face} (hd : d = .close c) : Alters t d z c (some f) (some f.shut)
  | locked {f : Face} (hd : d = .lock c) : Alters t d z c (some f) (some { f with holder := some t })
  | unlocked {f : Face} (hd : d = .unlock c) : Alters t d z c (some f) (some { f with holder := none })
  | released {f : Face} (hagenda : z.agenda = []) : Alters t d z c (some f) (some (f.release t))

theorem Does.alters {z : Thread} {v : World} (h : w.Does t x d rest z v) (c : Nat) :
    Alters t d z c w.faces[c]? v.faces[c]? := by
  have hmodified : ∀ {c' : Nat} {g : Face → Face}, v.faces = w.faces.modify c' g →
      (c' = c → ∀ f, Alters t d z c (some f) (some (g f))) → Alters t d z c w.faces[c]? v.faces[c]? := by
    intro c' g hfaces hg
    rw [hfaces, List.getElem?_modify]
    by_cases hc : c' = c
    · cases w.faces[c]? with
      | none => exact .same none
      | some f => simpa [hc] using hg hc f
    · simpa [hc] using .same _
  cases h with
  | plans _ _ _ _ hsteady =>
    rw [hsteady.faces]
    exact .same _
  | opens _ _ _ hfaces =>
    rw [hfaces, List.getElem?_append]
    split
    · exact .same _
    next hge =>
      rw [List.getElem?_eq_none (Nat.not_lt.1 hge), List.getElem?_singleton]
      split
      · exact .opened
      · exact .same none
  | closes hd _ _ _ _ hfaces => exact hmodified hfaces fun hc _ => .closed (hc ▸ hd)
  | locks hd _ _ hfaces => exact hmodified hfaces fun hc _ => .locked (hc ▸ hd)
  | unlocks hd _ _ hfaces => exact hmodified hfaces fun hc _ => .unlocked (hc ▸ hd)
  | throws _ hagenda _ hfaces =>
    rw [hfaces, List.getElem?_map]
    cases w.faces[c]? with
    | none => exact .same none
    | some f => exact .released hagenda

end World

/-! ## Moves -/

/-- The duty of the thread that a move starts. -/
def Move.duty? (w : World) : Move → Option Duty
  | .request r => some (.serve r)
  | .send c text => some (.send c text)
  | .broadcast text => some (.broadcast w.onlineConns text)
  | .close c => some (.close c)
  | .shutdown => some (.shutdown w.onlineConns)
  | .sweep => some (.expire w.expiredConns)
  | _ => none

/-- What a move does to threads, connections and tables. -/
inductive World.Turns (w : World) : Move → World → Prop
  | still {m : Move} {v : World} (hthreads : v.threads = w.threads) (hsteady : w.Steady v)
    (hready : ∀ t, m = .step t → w.ready t = false) : w.Turns m v
  | steps {t : Nat} {x : Thread} {d : Duty} {rest : List Duty} {v : World} (hready : w.ready t = true)
    (hx : w.Next t x d rest) (hv : v = w.stepThread t) : w.Turns (.step t) v
  | spawns {m : Move} {d : Duty} {v : World} (hd : m.duty? w = some d)
    (hthreads : v.threads = w.threads ++ [{ agenda := [d] }]) (hsteady : w.Steady v) : w.Turns m v
  /-- A handler acts. -/
  | acts {t number c : Nat} {data : String} {a a' : Act} {x : Thread} {rest : List Duty} {v : World}
    (hx : w.Next t x (.act number c data a') rest) (hv : v = w.push t [.act number c data a]) :
    w.Turns (.act t a) v
  | cancels {t : Nat} {v : World} (hv : v = w.updateThread t fun x => { x with cancelled := true }) :
    w.Turns (.cancel t) v
  | severs {t : Nat} {v : World} (hv : v = w.updateThread t fun x => { x with unwritable := true }) :
    w.Turns (.sever t) v
  | prefers {t : Nat} {reason : Poll.Wake} {v : World}
    (hv : v = w.updateThread t fun x => { x with preferred := reason }) : w.Turns (.prefer t reason) v

theorem History.world_after_step {h : History} {t : Nat} (hready : h.world.ready t = true) :
    (h.after (.step t)).world = h.world.stepThread t := by
  obtain ⟨x, d, rest, hx⟩ := World.agenda_of_ready hready
  rw [after_step_eq hready hx]

theorem History.turns_after (h : History) (m : Move) : h.world.Turns m (h.after m).world := by
  cases m with
  | step t =>
    rcases h.step_cases t with ⟨hready, hsame⟩ | ⟨hready, x, d, rest, hx, hstep⟩
    · rw [hsame]
      refine .still rfl (.refl _) ?_
      rintro u ⟨⟩
      exact hready
    · rw [hstep]
      exact .steps hready hx rfl
  | act t a =>
    unfold after
    dsimp only
    split
    next number c data hacting =>
      obtain ⟨x, a', rest, hx⟩ := World.acting?_eq_some hacting
      exact .acts hx rfl
    next => exact .still rfl (.refl _) (by rintro u ⟨⟩)
  | cancel t => exact .cancels rfl
  | sever t => exact .severs rfl
  | prefer t => exact .prefers rfl
  | clock | register => exact .still rfl (.of_conns_eq rfl rfl rfl) (by rintro u ⟨⟩)
  | _ =>
    exact .spawns rfl rfl (.of_conns_eq rfl rfl rfl)

/-- A move is a step of a thread, or leaves all faces and both tables as they are. -/
theorem World.Turns.steady_or_does {w v : World} {m : Move} (h : w.Turns m v) :
    w.Steady v ∨ ∃ t x d rest z, m = .step t ∧ w.ready t = true ∧ w.Next t x d rest ∧
      v.threads[t]? = some z ∧ w.Does t x d rest z v := by
  cases h with
  | still _ hsteady | spawns _ _ hsteady => exact Or.inl hsteady
  | steps hready hx hv =>
    subst hv
    obtain ⟨z, hz, -, hdoes⟩ := hx.steps
    exact Or.inr ⟨_, _, _, _, z, rfl, hready, hx, hz, hdoes⟩
  | acts _ hv | cancels hv | severs hv | prefers hv => exact Or.inl (hv ▸ .updateThread _ _ _)

/-- Ids stay. -/
theorem World.Does.idOf? {w v : World} {t : Nat} {x z : Thread} {d : Duty} {rest : List Duty}
    (h : w.Does t x d rest z v) {c : Nat} {id : String} (hid : w.idOf? c = some id) :
    v.idOf? c = some id := by
  have halters := h.alters c
  rw [idOf?_eq_face] at hid ⊢
  generalize w.faces[c]? = f at halters hid
  generalize v.faces[c]? = g at halters ⊢
  cases halters with
  | opened => cases hid
  | released =>
    rw [Face.release]
    split <;> exact hid
  | _ => exact hid

theorem History.idOf?_after (h : History) (m : Move) {c : Nat} {id : String}
    (hid : h.world.idOf? c = some id) : (h.after m).world.idOf? c = some id := by
  obtain hsteady | ⟨_, _, _, _, _, -, -, -, -, hdoes⟩ := (h.turns_after m).steady_or_does
  · rw [World.idOf?_eq_face, hsteady.faces, ← World.idOf?_eq_face, hid]
  · exact hdoes.idOf? hid

/-- What holds of a new server, and what no step of a thread breaks, holds of every run, if it is about faces and
tables only. -/
theorem World.run_induction {P : World → Prop} {settings : Settings} {limiter : Option Limiter} {ids : Ids}
    (hnew : P (History.new settings limiter ids).world) (hsteady : ∀ {w v : World}, P w → w.Steady v → P v)
    (hdoes : ∀ {w v : World} {t : Nat} {x z : Thread} {d : Duty} {rest : List Duty}, P w →
      w.Does t x d rest z v → P v) (moves : List Move) : P (History.run settings limiter ids moves).world := by
  induction moves using List.reverseRecOn with
  | nil => exact hnew
  | append_singleton more m ih =>
    rw [History.run_append]
    obtain hstill | ⟨_, _, _, _, _, -, -, -, -, hstep⟩ := (History.turns_after _ m).steady_or_does
    · exact hsteady ih hstill
    · exact hdoes ih hstep

/-! ## Ids that do not repeat -/

/-- No connection has the id of another one. -/
def World.Distinct (w : World) : Prop := (w.conns.map Conn.id).Nodup

instance (w : World) : Decidable w.Distinct := inferInstanceAs (Decidable (List.Nodup _))

theorem World.distinct_iff {w : World} :
    w.Distinct ↔ ∀ c d id, w.idOf? c = some id → w.idOf? d = some id → c = d := by
  have hids : ∀ c, w.idOf? c = (w.conns.map Conn.id)[c]? := by
    intro c
    rw [List.getElem?_map]
    rfl
  simp only [hids]
  constructor
  · intro hnodup c d id hc hd
    obtain ⟨hlt, -⟩ := List.getElem?_eq_some_iff.1 hc
    exact (List.getElem?_inj hlt hnodup).1 (hc.trans hd.symm)
  · intro hinj
    refine List.nodup_iff_injective_getElem.2 fun i j hij => Fin.ext ?_
    have hi := List.getElem?_eq_getElem i.2
    have hj := List.getElem?_eq_getElem j.2
    exact hinj i j _ hi (hj.trans (congrArg some hij.symm))

/-- Ids that do not repeat in the end have never repeated. -/
theorem World.Distinct.of_kept {w v : World} (h : v.Distinct)
    (hkept : ∀ c id, w.idOf? c = some id → v.idOf? c = some id) : w.Distinct := by
  rw [distinct_iff] at h ⊢
  intro c d id hc hd
  exact h c d id (hkept c id hc) (hkept d id hd)

end PollSocket.Server
