import PollSocket.Proofs.Server.Echo

set_option autoImplicit false

/-!
# Echo sessions do not see each other

Two runs of an echo server that go on from one state are compared from the point of view of one session. What
happens to the session in a run is the list of its own requests, of the steps of the threads that serve them, with
the time of each, and of clients that give up (`History.views`). Everything else may differ: other handshakes and
drains, the order of threads, sweeps, and the clock in between. If the views are the same, so is all that the session
gets to see (`History.sights`): the answers, and what waits in its queue.

The proof relates the two runs (`History.SameFor`): the own threads are the same, and so is the connection, but for the
number of the thread that holds it. Steps of other threads do not change this. They could close the session, when
it has lapsed and nobody drains it. Then it stays so in both runs (`World.Expirable`), and its requests are
refused whether or not it was closed yet.
-/

namespace PollSocket.Server

variable {y : Conn} {d : Duty} {h' k' : History} {rest : List Duty} {m m' : Move} {i t u : Nat}
  {r : Request} {x : Thread} {v : World}

/-- The request names the session with an id. -/
def Request.isFor (r : Request) (id : String) : Bool := r.header.get sessionField == id

/-- A connection that nobody holds. -/
def Conn.free (x : Conn) : Conn := { x with holder := none }

namespace World

/-! ## Own steps -/

/-- Connections that are the same but for their holders. -/
theorem conn_of_free {w : World} {c : Nat} (h : (v.conn? c).map Conn.free = (w.conn? c).map Conn.free)
    (hy : w.conn? c = some y) : ∃ o, v.conn? c = some { y with holder := o } := by
  rw [hy, Option.map_some, Option.map_eq_some_iff] at h
  obtain ⟨⟨id', protocol, connected, queue, o⟩, hz, hfree⟩ := h
  refine ⟨o, ?_⟩
  rw [hz]
  cases hfree
  rfl

theorem free_cases {w : World} {c : Nat} (h : (v.conn? c).map Conn.free = (w.conn? c).map Conn.free) :
    w.conn? c = none ∧ v.conn? c = none ∨
      ∃ y o, w.conn? c = some y ∧ v.conn? c = some { y with holder := o } := by
  cases hy : w.conn? c with
  | none =>
    rw [hy, Option.map_none, Option.map_eq_none_iff] at h
    exact Or.inl ⟨rfl, h⟩
  | some y =>
    obtain ⟨o, hz⟩ := conn_of_free h hy
    exact Or.inr ⟨y, o, rfl, hz⟩

/-- Worlds that are the same for thread `t` of the first and thread `u` of the second one, as far as they have to do
with connection `c` and its id. -/
structure Alike (c : Nat) (id : String) (t u : Nat) (w v : World) : Prop where
  settings : v.settings = w.settings
  handlers : v.handlers = w.handlers
  now : v.now = w.now
  thread : v.threads[u]? = w.threads[t]?
  conn : (v.conn? c).map Conn.free = (w.conn? c).map Conn.free
  session : v.sessions.lookup id = w.sessions.lookup id
  online : v.online.lookup id = w.online.lookup id

namespace Alike

variable {c : Nat} {id : String} {w : World}

variable (h : Alike c id t u w v)
include h

theorem note (n n' : Note) : Alike c id t u (w.note n) (v.note n') :=
  ⟨h.settings, h.handlers, h.now, h.thread, h.conn, h.session, h.online⟩

theorem updateThread (f : Thread → Thread) : Alike c id t u (w.updateThread t f) (v.updateThread u f) where
  __ := h
  thread := by rw [threads_updateThread, threads_updateThread, if_pos rfl, if_pos rfl, h.thread]

theorem updateConn {f g : Conn → Conn} (hfg : ∀ y o, (g { y with holder := o }).free = (f y).free) :
    Alike c id t u (w.updateConn c f) (v.updateConn c g) where
  __ := h
  conn := by
    rw [conn?_updateConn, conn?_updateConn, if_pos rfl, if_pos rfl]
    rcases free_cases h.conn with ⟨hy, hz⟩ | ⟨y, o, hy, hz⟩
    · rw [hy, hz]; rfl
    · rw [hy, hz]
      exact congrArg some (hfg y o)

theorem queue (q : Poll.Queue) :
    Alike c id t u (w.updateConn c fun y => { y with queue := q }) (v.updateConn c fun y => { y with queue := q }) :=
  h.updateConn fun _ _ => rfl

theorem respondJson (body : List UInt8) : Alike c id t u (w.respondJson t body) (v.respondJson u body) := by
  have hanswered := h.updateThread fun x : Thread => { x with
    answer := ⟨200, ({} : Header).set "Content-Type" jsonContent, if x.unwritable then [] else body⟩ }
  unfold World.respondJson
  rw [h.thread]
  dsimp only
  split
  · split
    · exact hanswered.note _ _
    · exact hanswered
  · exact hanswered

theorem taken (received : Nat) (r : Poll.Queue × Poll.Take) :
    Alike c id t u (w.taken t c received r) (v.taken u c received r) := by
  unfold World.taken
  cases r.2 with
  | done messages | waiting deadline => exact (h.queue r.1).updateThread _

theorem sendTo (text : String) :
    Alike c id t u (w.sendTo c text).1 (v.sendTo c text).1 ∧ (v.sendTo c text).2 = (w.sendTo c text).2 := by
  unfold World.sendTo
  rcases free_cases h.conn with ⟨hy, hz⟩ | ⟨y, o, hy, hz⟩
  · rw [hy, hz]
    exact ⟨h, rfl⟩
  · rw [hy, hz]
    dsimp only
    split
    · exact ⟨h.queue _, rfl⟩
    · exact ⟨h.note _ _, rfl⟩

theorem reply (received : Nat) (messages : Option (List String)) :
    Alike c id t u (w.reply t c received messages) (v.reply u c received messages) := by
  unfold World.reply
  rcases free_cases h.conn with ⟨hy, hz⟩ | ⟨y, o, hy, hz⟩
  · rw [hy, hz]
    exact h
  · rw [hy, hz]
    cases messages with
    | none => exact h.note _ _
    | some messages => exact Alike.respondJson (h.note _ _) _

theorem react_echo (event message : String) :
    Alike c id t u (w.react t event c message .echo) (v.react u event c message .echo) := by
  obtain ⟨hsent, hsame⟩ := h.sendTo message
  simp only [World.react]
  rw [hsame]
  generalize (w.sendTo c message).1 = w' at hsent
  cases (w.sendTo c message).2 with
  | ok => exact hsent
  | error cause =>
    rcases free_cases hsent.conn with ⟨hy, hz⟩ | ⟨y, o, hy, hz⟩
    · rw [hy, hz]
      exact hsent
    · rw [hy, hz]
      exact hsent.note _ _

/-- What a drain does with its session it does in both worlds. -/
theorem discharge (hd : d.touches? = some c) (x : Thread) :
    Alike c id t u (w.discharge t x d) (v.discharge u x d) := by
  rcases Duty.touches?_eq_some hd with ⟨event, m, rfl⟩ | hsession
  · exact h.react_echo event m
  · cases d with
    | trigger event c' data =>
      simp only [World.discharge]
      rw [h.handlers]
      exact h.updateThread _
    | lock c' | unlock c' =>
      cases hsession
      exact h.updateConn fun _ _ => rfl
    | deliver c' messages =>
      cases messages with
      | nil => exact h
      | cons m more => exact h.updateThread _
    | take c' received =>
      cases hsession
      simp only [World.discharge]
      rcases free_cases h.conn with ⟨hy, hz⟩ | ⟨y, o, hy, hz⟩
      · rw [hy, hz]
        exact h
      · rw [hy, hz, h.now, h.settings]
        exact h.taken received _
    | wait c' received deadline =>
      cases hsession
      simp only [World.discharge]
      rcases free_cases h.conn with ⟨hy, hz⟩ | ⟨y, o, hy, hz⟩
      · rw [hy, hz]
        exact h
      · rw [hy, hz, h.now]
        exact h.taken received _
    | reply c' received messages =>
      cases hsession
      exact h.reply received messages
    | _ => cases hsession

end Alike

variable {w : World} {c : Nat} {id : String}

/-- A drain that is served leaves connections and tables as they are. What becomes of its thread depends on whether
its session is found. -/
theorem serve_congr (hthread : v.threads[u]? = w.threads[t]?) (hdrains : r.opens = false)
    (hlive : v.liveSession? (r.header.get sessionField) = w.liveSession? (r.header.get sessionField)) :
    (v.serve u r).threads[u]? = (w.serve t r).threads[t]? ∧
      ((w.serve t r).conns = w.conns ∧ (w.serve t r).sessions = w.sessions ∧ (w.serve t r).online = w.online) ∧
      (v.serve u r).conns = v.conns ∧ (v.serve u r).sessions = v.sessions ∧ (v.serve u r).online = v.online := by
  have hsame : ∀ f : Thread → Thread, (v.updateThread u f).threads[u]? = (w.updateThread t f).threads[t]? := by
    intro f
    rw [threads_updateThread, threads_updateThread, if_pos rfl, if_pos rfl, hthread]
  have hdrains' : ¬ ((r.header.get sessionField).isEmpty || r.header.get sessionField == nullSession) = true :=
    Bool.eq_false_iff.1 hdrains
  unfold serve
  split
  · exact ⟨hsame _, ⟨rfl, rfl, rfl⟩, rfl, rfl, rfl⟩
  · split
    · exact ⟨hsame _, ⟨rfl, rfl, rfl⟩, rfl, rfl, rfl⟩
    · rw [if_neg hdrains', if_neg hdrains']
      unfold drain
      rw [hlive]
      split
      · exact ⟨hsame _, ⟨rfl, rfl, rfl⟩, rfl, rfl, rfl⟩
      · split
        · exact ⟨hsame _, ⟨rfl, rfl, rfl⟩, rfl, rfl, rfl⟩
        · split <;> exact ⟨hsame _, ⟨rfl, rfl, rfl⟩, rfl, rfl, rfl⟩

/-- A session that is the same in both worlds is found in both or in none. -/
theorem liveSession?_congr (hnow : v.now = w.now) (hconn : (v.conn? c).map Conn.free = (w.conn? c).map Conn.free)
    (hsession : v.sessions.lookup id = w.sessions.lookup id) (honline : v.online.lookup id = w.online.lookup id)
    (hrow : ∀ d, w.sessions.lookup id = some d → d = c) : v.liveSession? id = w.liveSession? id := by
  unfold liveSession?
  rw [hsession, honline]
  cases hlookup : w.sessions.lookup id with
  | none => rfl
  | some d =>
    obtain rfl := hrow d hlookup
    cases w.online.lookup id with
    | none => rfl
    | some e =>
      rcases free_cases hconn with ⟨hy, hz⟩ | ⟨y, o, hy, hz⟩ <;> simp only [hy, hz, hnow]

/-! ## Steps of others -/

/-- The row of a session changes only when it is closed, if no other connection gets its id. -/
theorem rows_step (hx : w.Next t x d rest)
    (hdistinct : (w.stepThread t).Distinct) (hid : w.idOf? c = some id) (hclose : d ≠ .close c) :
    (w.stepThread t).sessions.lookup id = w.sessions.lookup id ∧
      (w.stepThread t).online.lookup id = w.online.lookup id := by
  have heffect := hx.effect
  have hunique := distinct_iff.1 hdistinct
  obtain ⟨z, -, -, hdoes⟩ := hx.steps
  generalize w.stepThread t = v at hdistinct heffect hunique hdoes
  cases hdoes with
  | plans _ _ _ _ hsteady => exact ⟨by rw [hsteady.sessions], by rw [hsteady.online]⟩
  | opens _ _ _ hfaces hsessions honline =>
    -- the new connection has an id of its own
    have hne : id ≠ w.ids.draw.1 := by
      rintro rfl
      obtain ⟨y, hy, -⟩ := Option.map_eq_some_iff.1 hid
      have hlt : c < w.conns.length := (List.getElem?_eq_some_iff.1 hy).1
      have hnew : v.idOf? w.conns.length = some w.ids.draw.1 := by
        rw [idOf?_eq_face, hfaces, ← length_faces, List.getElem?_concat_length]
        rfl
      have hsame := hunique c w.conns.length _ (heffect.ids c _ hid) hnew
      omega
    rw [hsessions, honline, lookup_putEntry, lookup_putEntry, if_neg hne, if_neg hne]
    exact ⟨rfl, rfl⟩
  | @closes c' y hd hy _ _ _ _ hsessions honline =>
    have hne : id ≠ y.id := by
      rintro rfl
      have hid' : w.idOf? c' = some y.id := by rw [idOf?, hy]; rfl
      obtain rfl := hunique c c' _ (heffect.ids c _ hid) (heffect.ids c' _ hid')
      exact hclose hd
    rw [hsessions, honline, lookup_dropEntry, lookup_dropEntry, if_neg hne, if_neg hne]
    exact ⟨rfl, rfl⟩
  | locks _ _ _ _ hsessions honline | unlocks _ _ _ _ hsessions honline | throws _ _ _ _ hsessions honline =>
    exact ⟨by rw [hsessions], by rw [honline]⟩

/-- What a thread does that serves another session does not work on this one. -/
theorem touches?_ne_of_fits {o : Option Request} (hfits : d.Fits w o) (hid : w.idOf? c = some id)
    (ho : o.any (·.isFor id) = false) : d.touches? ≠ some c := by
  intro hc
  cases hfits with
  | serves r => cases hc
  | @drains r _ c' _ hc' hid' =>
    cases hc'.symm.trans hc
    rw [hid', Option.some.injEq] at hid
    simp [Request.isFor, hid] at ho
  | aside _ hd =>
    rw [Duty.touches?_of_aloof hd] at hc
    cases hc

/-- By the given time the session has lapsed, and no drain of it is in progress. -/
structure Expirable (w : World) (c : Nat) (time : Int) : Prop where
  lapsed : (w.shut c || w.pulses[c]?.any fun p => p.late time) = true
  undrained : ∀ t, ∀ d ∈ w.agenda t, d.session? ≠ some c

namespace Expirable

variable {time later : Int}

theorem iff_faded : w.Expirable c w.now ↔ w.Faded c :=
  ⟨fun h => ⟨by rw [lapsed_eq]; exact h.lapsed, h.undrained⟩,
    fun h => ⟨by rw [← lapsed_eq]; exact h.lapsed, h.undrained⟩⟩

theorem mono (h : w.Expirable c time) (hle : time ≤ later) : w.Expirable c later :=
  ⟨lapsed_mono hle h.lapsed, h.undrained⟩

/-- A step that does not begin to drain the session. -/
theorem step (h : w.Expirable c time) (hx : w.Next t x d rest)
    (hnew : ∀ e ∈ (w.stepThread t).agenda t, e.session? ≠ some c) : (w.stepThread t).Expirable c time := by
  obtain ⟨z, -, -, hdoes⟩ := hx.steps
  constructor
  · have hlapsed := h.lapsed
    rw [Bool.or_eq_true] at hlapsed ⊢
    rcases hlapsed with hshut | hlate
    · exact Or.inl (hdoes.shut_after hshut)
    · refine Or.inr ?_
      cases hx.beats.feels c with
      | keeps hkeeps => rwa [hkeeps]
      | drained htakes =>
        exact absurd (Duty.session?_of_takesFrom? htakes) (h.undrained t d hx.mem)
      | begins hnone =>
        rw [hnone] at hlate
        cases hlate
  · intro s e he
    by_cases hs : s = t
    · exact hnew e (hs ▸ he)
    · rw [hx.agenda_other hs] at he
      exact h.undrained s e he

end Expirable

/-- How two worlds agree on a session. It is the same in both, but for the thread that holds it, or nobody drains it
and it has lapsed, at the later of the two times. -/
inductive Agree (c : Nat) (id : String) (w v : World) : Prop
  | same (hconn : (v.conn? c).map Conn.free = (w.conn? c).map Conn.free)
    (hsession : v.sessions.lookup id = w.sessions.lookup id) (honline : v.online.lookup id = w.online.lookup id)
  | left (hw : w.Expirable c (max w.now v.now)) (hv : v.Expirable c (max w.now v.now))
    (hpending : v.pendingOf c = w.pendingOf c)

namespace Agree

theorem symm (h : Agree c id w v) : Agree c id v w := by
  cases h with
  | same hconn hsession honline => exact .same hconn.symm hsession.symm honline.symm
  | left hw hv hpending =>
    rw [max_comm] at hw hv
    exact .left hv hw hpending.symm

theorem pendingOf_of_free (h : (v.conn? c).map Conn.free = (w.conn? c).map Conn.free) :
    v.pendingOf c = w.pendingOf c := by
  have hpending := congrArg (Option.map fun y : Conn => y.queue.pending) h
  rw [Option.map_map, Option.map_map] at hpending
  exact congrArg (Option.getD · []) hpending

theorem pendingOf (h : Agree c id w v) : v.pendingOf c = w.pendingOf c := by
  cases h with
  | same hconn => exact pendingOf_of_free hconn
  | left _ _ hpending => exact hpending

/-- A world in which the clock has gone on, and all else about the session is as before. -/
theorem still {w' : World} (h : Agree c id w v) (hconns : w'.conns = w.conns) (hsessions : w'.sessions = w.sessions)
    (honline : w'.online = w.online) (hnow : w.now ≤ w'.now)
    (hundrained : (∀ t, ∀ d ∈ w.agenda t, d.session? ≠ some c) → ∀ t, ∀ d ∈ w'.agenda t, d.session? ≠ some c) :
    Agree c id w' v := by
  cases h with
  | same hconn hsession honline' =>
    refine .same ?_ (by rw [hsessions]; exact hsession) (by rw [honline]; exact honline')
    rw [hconn, conn?, conn?, hconns]
  | left hw hv hpending =>
    have hle : max w.now v.now ≤ max w'.now v.now := max_le_max_right v.now hnow
    refine .left ⟨?_, hundrained hw.undrained⟩ (hv.mono hle) ?_
    · have hlapsed := (hw.mono hle).lapsed
      rwa [shut, faces, pulses, ← hconns] at hlapsed
    · rw [hpending, pendingOf_of_conns_eq hconns]

end Agree

/-- A connection is closed, unless it is closed already. -/
theorem close_step (hx : w.Next t x (.close c) rest)
    (hy : w.conn? c = some y) :
    (w.stepThread t).conn? c =
        some (if y.connected then { y with connected := false, queue := y.queue.close } else y) ∧
      (w.stepThread t).sessions.lookup y.id = (if y.connected then none else w.sessions.lookup y.id) ∧
      (w.stepThread t).online.lookup y.id = (if y.connected then none else w.online.lookup y.id) := by
  have hy' : (w.pop t rest).conn? c = some y := hy
  rw [hx.step_eq]
  simp only [discharge, closeConn, hy']
  split
  · refine ⟨?_, ?_, ?_⟩
    · show ((w.pop t rest).updateConn c _).conn? c = _
      rw [conn?_updateConn, if_pos rfl, hy', Option.map_some]
    · exact (lookup_dropEntry y.id y.id w.sessions).trans (if_pos rfl)
    · exact (lookup_dropEntry y.id y.id w.online).trans (if_pos rfl)
  · exact ⟨hy, rfl, rfl⟩

/-- Thread `t` is to close connection `c` while it is drained or before it has lapsed. -/
def hangsUp (w : World) (t c : Nat) : Bool :=
  match w.agenda t with
  | .close d :: _ => d == c && !(w.lapsed c && !w.busy c)
  | _ => false

end World

/-! ## What happens to a session, and what it gets to see -/

/-- Something that happens to a session. Its requests are counted in the order in which they came in. -/
inductive SessionEvent where
  | request (r : Request)
  /-- The thread that serves a request of the session goes on. -/
  | step (i : Nat) (now : Int)
  /-- The client of a request gives up. -/
  | cancel (i : Nat)
  /-- Nothing can be written to the client of a request any more. -/
  | sever (i : Nat)
  /-- Why a take of a request goes on, where there are several reasons. -/
  | prefer (i : Nat) (reason : Poll.Wake)
  /-- The session is closed while it is drained, or before it has lapsed. -/
  | hangup
  deriving DecidableEq

/-- What a session gets to see: the answers to its requests, as far as they are complete, and its queue. -/
structure Sight where
  answers : List (Option Answer)
  queue : List String
  deriving DecidableEq

/-- Threads that serve the requests of the session with an id. -/
def Books.own (b : Books) (id : String) : List Nat := b.origins.findIdxs fun o => o.any (·.isFor id)

theorem Books.mem_own {b : Books} {id : String} :
    t ∈ b.own id ↔ ∃ r, b.origins[t]? = some (some r) ∧ r.isFor id = true := by
  rw [own, List.mem_findIdxs_iff_exists_getElem_pos]
  constructor
  · rintro ⟨ht, hfor⟩
    obtain ⟨r, hr, hfor⟩ := (Option.any_eq_true _ _).1 hfor
    exact ⟨r, by rw [List.getElem?_eq_getElem ht, hr], hfor⟩
  · rintro ⟨r, hr, hfor⟩
    obtain ⟨ht, heq⟩ := List.getElem?_eq_some_iff.1 hr
    exact ⟨ht, by rw [heq]; exact hfor⟩

namespace History

/-- What a move is for the session of connection `c`, if anything. -/
def sessionEvent? (h : History) (c : Nat) (id : String) : Move → Option SessionEvent
  | .request r => if r.isFor id then some (.request r) else none
  | .step t =>
    if h.world.ready t then
      if t ∈ h.own id then some (.step ((h.own id).idxOf t) h.world.now)
      else if h.world.hangsUp t c then some .hangup
      else none
    else none
  | .cancel t => if t ∈ h.own id then some (.cancel ((h.own id).idxOf t)) else none
  | .sever t => if t ∈ h.own id then some (.sever ((h.own id).idxOf t)) else none
  | .prefer t reason => if t ∈ h.own id then some (.prefer ((h.own id).idxOf t) reason) else none
  | _ => none

/-- What happens to the session of connection `c` in a run. -/
def views (c : Nat) (id : String) : History → List Move → List SessionEvent
  | _, [] => []
  | h, m :: more => (h.sessionEvent? c id m).toList ++ views c id (h.after m) more

/-- What the session of connection `c` sees now. -/
def sight (h : History) (c : Nat) (id : String) : Sight where
  answers := (h.own id).map fun t => h.world.threads[t]?.bind fun x =>
    if x.agenda.isEmpty then some x.answer else none
  queue := h.world.pendingOf c

/-- What the session of connection `c` sees in a run, each time that something happens to it. -/
def sights (c : Nat) (id : String) : History → List Move → List Sight
  | _, [] => []
  | h, m :: more =>
    (if (h.sessionEvent? c id m).isSome then [(h.after m).sight c id] else []) ++ sights c id (h.after m) more

/-- The thread that serves a request of the session. -/
def ownThread? (h : History) (id : String) (i : Nat) : Option Thread :=
  (h.own id)[i]?.bind fun t => h.world.threads[t]?

/-- Histories that are the same for the session of connection `c`. -/
structure SameFor (c : Nat) (id : String) (h k : History) : Prop where
  settings : k.world.settings = h.world.settings
  count : (k.own id).length = (h.own id).length
  threads : ∀ i, k.ownThread? id i = h.ownThread? id i
  agree : World.Agree c id h.world k.world

variable {c : Nat} {id : String} {h k : History}

theorem SameFor.symm (ha : SameFor c id h k) : SameFor c id k h :=
  ⟨ha.settings.symm, ha.count.symm, fun i => (ha.threads i).symm, ha.agree.symm⟩

/-- Histories that are the same for a session look the same to it. -/
theorem SameFor.sight (ha : SameFor c id h k) : k.sight c id = h.sight c id := by
  rw [History.sight, History.sight, Sight.mk.injEq]
  refine ⟨List.ext_getElem? fun i => ?_, ha.agree.pendingOf⟩
  have hi := ha.threads i
  rw [ownThread?, ownThread?] at hi
  rw [List.getElem?_map, List.getElem?_map]
  by_cases hlt : i < (h.own id).length
  · have hlt' : i < (k.own id).length := ha.count ▸ hlt
    rw [List.getElem?_eq_getElem hlt, List.getElem?_eq_getElem hlt'] at hi ⊢
    rw [Option.bind_some, Option.bind_some] at hi
    rw [Option.map_some, Option.map_some, hi]
  · have hlt' : ¬ i < (k.own id).length := ha.count ▸ hlt
    rw [List.getElem?_eq_none (Nat.not_lt.1 hlt), List.getElem?_eq_none (Nat.not_lt.1 hlt')]
    rfl

/-- Own threads are found where they were, if no request for the session came in. -/
theorem ownThread?_congr (hown : k.own id = h.own id)
    (hthreads : ∀ t ∈ h.own id, k.world.threads[t]? = h.world.threads[t]?) (i : Nat) :
    k.ownThread? id i = h.ownThread? id i := by
  rw [ownThread?, ownThread?, hown]
  cases hi : (h.own id)[i]? with
  | none => rfl
  | some t => exact hthreads t (List.mem_of_getElem? hi)

/-- A change of one of the own threads. -/
theorem ownThread?_of_changed (hown : k.own id = h.own id) (ht : (h.own id)[i]? = some t)
    (hothers : ∀ s, s ≠ t → k.world.threads[s]? = h.world.threads[s]?) (j : Nat) :
    k.ownThread? id j = if j = i then k.world.threads[t]? else h.ownThread? id j := by
  rw [ownThread?, ownThread?, hown]
  split
  next hj => rw [hj, ht, Option.bind_some]
  next hj =>
    cases hs : (h.own id)[j]? with
    | none => rfl
    | some s =>
      apply hothers
      rintro rfl
      -- a thread is found at one place only
      have hnodup : (h.own id).Nodup := List.nodup_findIdxs
      obtain ⟨hlt, -⟩ := List.getElem?_eq_some_iff.1 hs
      exact hj ((List.getElem?_inj hlt hnodup).1 (hs.trans ht.symm))

theorem lt_of_mem_own (hs : Sound h.toBooks h.world) (ht : t ∈ h.own id) : t < h.world.threads.length := by
  obtain ⟨r, hr, -⟩ := Books.mem_own.1 ht
  rw [← hs.aligned]
  exact (List.getElem?_eq_some_iff.1 hr).1

theorem own_after_step : (h.after (.step t)).own id = h.own id := by
  rw [Books.own, origins_after_step, Books.own]

/-! ## Moves that the session does not see -/

/-- A move that is nothing for the session leaves its threads alone. -/
theorem own_of_hidden (hs : Sound h.toBooks h.world) (hm : m.serves = true)
    (hhidden : h.sessionEvent? c id m = none) :
    (h.after m).own id = h.own id ∧ ∀ t ∈ h.own id, (h.after m).world.threads[t]? = h.world.threads[t]? := by
  have hspawned : ∀ (d : Duty) {o : Option Request}, o.any (·.isFor id) = false →
      (h.spawn [d] o).own id = h.own id ∧
        ∀ t ∈ h.own id, (h.spawn [d] o).world.threads[t]? = h.world.threads[t]? := by
    intro d o ho
    constructor
    · show (h.origins ++ [o]).findIdxs _ = _
      rw [List.findIdxs_append, List.findIdxs_singleton, if_neg (by simp [ho]), List.append_nil]
      rfl
    · intro t ht
      exact List.getElem?_append_left (lt_of_mem_own hs ht)
  have hflag : ∀ (t : Nat) (f : Thread → Thread), t ∉ h.own id → ∀ s ∈ h.own id,
      (h.world.updateThread t f).threads[s]? = h.world.threads[s]? := by
    intro t f ht s hs
    rw [World.threads_updateThread, if_neg]
    rintro rfl
    exact ht hs
  cases m with
  | step t =>
    rw [sessionEvent?] at hhidden
    split at hhidden
    next hready =>
      split at hhidden
      · cases hhidden
      next ht =>
        obtain ⟨x, d, rest, hx⟩ := World.agenda_of_ready hready
        refine ⟨own_after_step, fun s hs => ?_⟩
        rw [world_after_step hready]
        apply hx.effect.others
        rintro rfl
        exact ht hs
    next hready =>
      rw [History.after, if_neg hready]
      exact ⟨rfl, fun _ _ => rfl⟩
  | request r =>
    rw [sessionEvent?] at hhidden
    split at hhidden
    · cases hhidden
    next hfor => exact hspawned (.serve r) (by simpa using hfor)
  | sweep => exact hspawned (.expire h.world.expiredConns) rfl
  | cancel t | sever t | prefer t =>
    rw [sessionEvent?] at hhidden
    split at hhidden
    · cases hhidden
    next ht => exact ⟨rfl, hflag t _ ht⟩
  | clock now => exact ⟨rfl, fun _ _ => rfl⟩
  | _ => cases hm

/-- An echo server where a connection has an id. -/
structure Hosts (h : History) (c : Nat) (id : String) : Prop extends Echoes h where
  named : h.world.idOf? c = some id

theorem Hosts.after (hh : h.Hosts c id) (hm : m.serves = true) : (h.after m).Hosts c id :=
  ⟨hh.toEchoes.after hm, h.idOf?_after m hh.named⟩

/-- What works on the session belongs to an own thread. -/
theorem mem_own_of_touches (hh : h.Hosts c id) {e : Duty}
    (he : e ∈ h.world.agenda t) (hc : e.touches? = some c) : t ∈ h.own id := by
  obtain ⟨x, hx⟩ := World.thread_of_mem he
  obtain ⟨o, ho, -⟩ := hh.sound.courses t x hx
  cases hfor : o.any (·.isFor id) with
  | false => exact absurd hc (World.touches?_ne_of_fits (hh.fits t o ho e he) hh.named hfor)
  | true =>
    obtain ⟨r, rfl, hr⟩ := (Option.any_eq_true _ _).1 hfor
    exact Books.mem_own.2 ⟨r, ho, hr⟩

/-- An own thread and what corresponds to it in the other history. -/
theorem SameFor.thread_of_mem (ha : SameFor c id h k) (hu : u ∈ k.own id) :
    ∃ t, t ∈ h.own id ∧ k.world.threads[u]? = h.world.threads[t]? := by
  obtain ⟨i, hi⟩ := List.mem_iff_getElem?.1 hu
  have hlt : i < (h.own id).length := ha.count ▸ (List.getElem?_eq_some_iff.1 hi).1
  have hsame := ha.threads i
  rw [ownThread?, ownThread?, hi, List.getElem?_eq_getElem hlt] at hsame
  exact ⟨_, List.getElem_mem hlt, hsame⟩

/-- A session that has faded in one history is left for good in both. -/
theorem SameFor.left_of_faded (ha : SameFor c id h k) (hk : k.Hosts c id) (hfaded : h.world.Faded c)
    (hconn : (k.world.conn? c).map Conn.free = (h.world.conn? c).map Conn.free) :
    h.world.Expirable c (max h.world.now k.world.now) ∧ k.world.Expirable c (max h.world.now k.world.now) := by
  have hleft := (World.Expirable.iff_faded.2 hfaded).mono (le_max_left h.world.now k.world.now)
  refine ⟨hleft, ?_, ?_⟩
  · obtain ⟨y, hy, -⟩ := Option.map_eq_some_iff.1 hk.named
    obtain ⟨o, hz⟩ := World.conn_of_free hconn.symm hy
    have hlapsed := hleft.lapsed
    rw [World.shut, World.getElem?_faces, World.getElem?_pulses] at hlapsed ⊢
    rw [hz] at hlapsed
    rw [hy]
    exact hlapsed
  · intro u e he hc
    -- such a thread has one like it in the first history
    obtain ⟨t, -, hsame⟩ := ha.thread_of_mem (mem_own_of_touches hk he (Duty.touches?_of_session? hc))
    have hagenda : k.world.agenda u = h.world.agenda t := by rw [World.agenda, hsame, World.agenda]
    exact hfaded.undrained t e (hagenda ▸ he) hc

/-- A step of a thread that serves another session plans nothing for this one, and takes nothing from its queue. -/
theorem foreign_step (hh : h.Hosts c id) (ht : t ∉ h.own id)
    (hx : h.world.Next t x d rest) :
    (∀ e ∈ (h.world.stepThread t).agenda t, e.session? ≠ some c) ∧
      (h.world.stepThread t).pendingOf c = h.world.pendingOf c ∧
      (d ≠ .close c → (h.world.stepThread t).conn? c = h.world.conn? c) := by
  obtain ⟨o, ho, -⟩ := hh.sound.courses t x hx.thread
  have hfor : o.any (·.isFor id) = false := by
    rw [Bool.eq_false_iff]
    intro hfor
    obtain ⟨r, rfl, hr⟩ := (Option.any_eq_true _ _).1 hfor
    exact ht (Books.mem_own.2 ⟨r, ho, hr⟩)
  have hfits := hh.fits t o ho d hx.mem
  have htouches := World.touches?_ne_of_fits hfits hh.named hfor
  obtain ⟨y, hy, -⟩ := Option.map_eq_some_iff.1 hh.named
  obtain ⟨hspares, duties, hduties, hplanned, -⟩ := World.echoStep hh.handlers hh.sound.tabled hx hfits
  have hconn : d ≠ .close c → (h.world.stepThread t).conn? c = h.world.conn? c := by
    intro hclose
    rw [hy]
    apply hspares.conns c y _ hy
    intro hreaches
    cases d with
    | close c' =>
      cases hreaches
      exact hclose rfl
    | _ => exact htouches hreaches
  refine ⟨fun e he hc => ?_, ?_, hconn⟩
  · rw [hduties] at he
    rcases List.mem_append.1 he with he | he
    · exact World.touches?_ne_of_fits (hplanned e he) hh.named hfor (Duty.touches?_of_session? hc)
    · have he' : e ∈ h.world.agenda t := by
        exact hx.mem_rest he
      exact ht (mem_own_of_touches hh he' (Duty.touches?_of_session? hc))
  · by_cases hclose : d = .close c
    · subst hclose
      simpa [World.sends?, World.takes?] using hx.effect.pending c
    · rw [World.pendingOf, hconn hclose, World.pendingOf]

/-- A thread that serves another session goes on. It does not close this one, unless it is left for good. -/
theorem agree_of_foreign (hagree : World.Agree c id h.world v) (hh : h.Hosts c id) (ht : t ∉ h.own id)
    (hx : h.world.Next t x d rest) (hdistinct : (h.world.stepThread t).Distinct)
    (hclose : d = .close c → h.world.Expirable c (max h.world.now v.now) ∧ v.Expirable c (max h.world.now v.now)) :
    World.Agree c id (h.world.stepThread t) v := by
  obtain ⟨hnew, hpending, hconn⟩ := foreign_step hh ht hx
  have hnow := hx.beats.now
  have hleft : h.world.Expirable c (max h.world.now v.now) → v.Expirable c (max h.world.now v.now) →
      World.Agree c id (h.world.stepThread t) v := by
    intro hw hv
    refine .left ?_ ?_ (by rw [hpending, hagree.pendingOf])
    · rw [hnow]
      exact hw.step hx hnew
    · rw [hnow]
      exact hv
  cases hagree with
  | left hw hv => exact hleft hw hv
  | same hsame hsession honline =>
    by_cases hcloses : d = .close c
    · exact hleft (hclose hcloses).1 (hclose hcloses).2
    · obtain ⟨hsessions, honlines⟩ := World.rows_step hx hdistinct hh.named hcloses
      exact .same (by rw [hconn hcloses, hsame]) (by rw [hsessions, hsession]) (by rw [honlines, honline])

/-- A move that is no step leaves the session as it is. -/
theorem agree_of_rests (hagree : World.Agree c id h.world v) (hrests : h.Rests k m) :
    World.Agree c id k.world v := by
  refine hagree.still hrests.conns hrests.sessions hrests.online hrests.now fun hundrained t d hd => ?_
  rcases hrests.threads t with ⟨-, hagenda⟩ | ⟨-, o, e, -, hagenda, hkind⟩
  · exact hundrained t d (hagenda ▸ hd)
  · rw [hagenda, List.mem_singleton] at hd
    rcases hkind with ⟨r, -, -, rfl⟩ | ⟨-, rfl⟩ <;> simp [hd, Duty.session?]

/-- The same in both histories. -/
theorem agree_of_rests_both (hagree : World.Agree c id h.world k.world) (hrests : h.Rests h' m)
    (hrests' : k.Rests k' m') : World.Agree c id h'.world k'.world :=
  (agree_of_rests (agree_of_rests hagree hrests).symm hrests').symm

theorem settings_after_step (hready : h.world.ready t = true) :
    (h.after (.step t)).world.settings = h.world.settings := by
  obtain ⟨x, d, rest, hx⟩ := World.agenda_of_ready hready
  rw [world_after_step hready, hx.beats.settings]

section

variable (ha : SameFor c id h k)
include ha

/-- A move that is nothing for the session. -/
theorem SameFor.hidden (hh : h.Hosts c id) (hk : k.Hosts c id) (hm : m.serves = true)
    (hdistinct : (h.after m).world.Distinct) (hhidden : h.sessionEvent? c id m = none) :
    SameFor c id (h.after m) k := by
  obtain ⟨hown, hthreads⟩ := own_of_hidden hh.sound hm hhidden
  have hcount : (k.own id).length = ((h.after m).own id).length := by rw [hown, ha.count]
  have hsame : ∀ i, k.ownThread? id i = (h.after m).ownThread? id i := fun i => by
    rw [ownThread?_congr hown hthreads i, ha.threads i]
  by_cases hstep : ∃ t, m = .step t
  · obtain ⟨t, rfl⟩ := hstep
    rw [sessionEvent?] at hhidden
    split at hhidden
    next hready =>
      split at hhidden
      · cases hhidden
      next ht =>
        split at hhidden
        · cases hhidden
        next hhangs =>
          obtain ⟨x, d, rest, hx⟩ := World.agenda_of_ready hready
          have hworld := world_after_step hready
          rw [hworld] at hdistinct
          refine ⟨by rw [settings_after_step hready, ha.settings], hcount, hsame, ?_⟩
          rw [hworld]
          apply agree_of_foreign ha.agree hh ht hx hdistinct
          intro hclose
          cases ha.agree with
          | left hw hv => exact ⟨hw, hv⟩
          | same hconn =>
            -- the session is closed, but not before it has faded
            have hfaded : h.world.Faded c := by
              rw [World.hangsUp, hx.agenda_eq, hclose] at hhangs
              simpa [World.Faded.iff] using hhangs
            exact ha.left_of_faded hk hfaded hconn
    next hready =>
      rw [History.after, if_neg hready]
      exact ha
  · have hrests := rests_after hh.sound.aligned hm fun t heq => hstep ⟨t, heq⟩
    exact ⟨by rw [hrests.settings, ha.settings], hcount, hsame, agree_of_rests ha.agree hrests⟩

/-! ## Moves that the session sees -/

/-- A request for the session comes in. -/
theorem SameFor.request (hh : h.Echoes) (hk : k.Echoes) (hr : r.isFor id = true) :
    SameFor c id (h.after (.request r)) (k.after (.request r)) := by
  have hrests : h.Rests (h.after (.request r)) (.request r) := rests_after hh.sound.aligned rfl (by simp)
  have hrests' : k.Rests (k.after (.request r)) (.request r) := rests_after hk.sound.aligned rfl (by simp)
  have hown : ∀ g : History, (g.after (.request r)).own id = g.own id ++ [g.origins.length] := by
    intro g
    show (g.origins ++ [some r]).findIdxs _ = _
    rw [List.findIdxs_append, List.findIdxs_singleton, if_pos (by exact hr), Nat.zero_add]
    rfl
  have hthread : ∀ {g : History}, Sound g.toBooks g.world → ∀ i, (g.after (.request r)).ownThread? id i =
      if i = (g.own id).length then some { agenda := [.serve r] } else g.ownThread? id i := by
    intro g hg i
    have hthreads : (g.after (.request r)).world.threads = g.world.threads ++ [{ agenda := [.serve r] }] := rfl
    rw [ownThread?, hown, hthreads, ownThread?]
    split
    next hi => rw [hi, List.getElem?_concat_length, Option.bind_some, hg.aligned, List.getElem?_concat_length]
    next hi =>
      rw [getElem?_concat_of_ne hi]
      cases ht : (g.own id)[i]? with
      | none => rfl
      | some t => exact List.getElem?_append_left (lt_of_mem_own hg (List.mem_of_getElem? ht))
  refine ⟨ha.settings, ?_, fun i => ?_, ?_⟩
  · rw [hown, hown, List.length_append, List.length_append, ha.count, List.length_singleton, List.length_singleton]
  · rw [hthread hh.sound, hthread hk.sound, ha.count, ha.threads i]
  · exact agree_of_rests_both ha.agree hrests hrests'

/-- The client of a request of the session gives up, or cannot be written to any more. -/
theorem SameFor.flag (hrests : h.Rests h' m)
    (hrests' : k.Rests k' m') (ht : (h.own id)[i]? = some t) (hu : (k.own id)[i]? = some u)
    {f : Thread → Thread} (hh' : h' = { h with world := h.world.updateThread t f })
    (hk' : k' = { k with world := k.world.updateThread u f }) : SameFor c id h' k' := by
  have hown : h'.own id = h.own id := by rw [hh']
  have hown' : k'.own id = k.own id := by rw [hk']
  refine ⟨by rw [hrests'.settings, hrests.settings, ha.settings], by rw [hown, hown', ha.count], fun j => ?_,
    agree_of_rests_both ha.agree hrests hrests'⟩
  have hothers : ∀ s, s ≠ t → h'.world.threads[s]? = h.world.threads[s]? := fun s hs => by
    rw [hh', World.threads_updateThread, if_neg hs]
  have hothers' : ∀ s, s ≠ u → k'.world.threads[s]? = k.world.threads[s]? := fun s hs => by
    rw [hk', World.threads_updateThread, if_neg hs]
  rw [ownThread?_of_changed hown ht hothers, ownThread?_of_changed hown' hu hothers', ha.threads j]
  have hsame := ha.threads i
  rw [ownThread?, ownThread?, ht, hu, Option.bind_some, Option.bind_some] at hsame
  rw [hh', hk', World.threads_updateThread, World.threads_updateThread, if_pos rfl, if_pos rfl, hsame]

/-- The session is closed in both histories, while it is drained or before it has lapsed. -/
theorem SameFor.hangup (hh : h.Hosts c id) (hk : k.Hosts c id)
    (hready : h.world.ready t = true) (hready' : k.world.ready u = true)
    (ht : t ∉ h.own id) (hu : u ∉ k.own id) {z : Thread} {rest' : List Duty}
    (hx : h.world.Next t x (.close c) rest)
    (hz : k.world.Next u z (.close c) rest')
    (hdistinct : (h.after (.step t)).world.Distinct) (hdistinct' : (k.after (.step u)).world.Distinct) :
    SameFor c id (h.after (.step t)) (k.after (.step u)) := by
  have hworld := world_after_step hready
  have hworld' := world_after_step hready'
  have hthreads : ∀ s ∈ h.own id, (h.after (.step t)).world.threads[s]? = h.world.threads[s]? := by
    intro s hs
    rw [hworld]
    exact hx.effect.others s fun heq => ht (heq ▸ hs)
  have hthreads' : ∀ s ∈ k.own id, (k.after (.step u)).world.threads[s]? = k.world.threads[s]? := by
    intro s hs
    rw [hworld']
    exact hz.effect.others s fun heq => hu (heq ▸ hs)
  refine ⟨by rw [settings_after_step hready', settings_after_step hready, ha.settings],
    by rw [own_after_step, own_after_step, ha.count], fun i => ?_, ?_⟩
  · rw [ownThread?_congr own_after_step hthreads, ownThread?_congr own_after_step hthreads', ha.threads i]
  · rw [hworld] at hdistinct ⊢
    rw [hworld'] at hdistinct' ⊢
    cases hagree : ha.agree with
    | left hw hv =>
      have hnow := hx.beats.now
      have hfirst := agree_of_foreign ha.agree hh ht hx hdistinct fun _ => ⟨hw, hv⟩
      refine (agree_of_foreign hfirst.symm hk hu hz hdistinct' fun _ => ?_).symm
      rw [hnow, max_comm]
      exact ⟨hv, hw.step hx (foreign_step hh ht hx).1⟩
    | same hconn hsession honline =>
      obtain ⟨y, hy, rfl⟩ := Option.map_eq_some_iff.1 hh.named
      obtain ⟨o, hy'⟩ := World.conn_of_free hconn hy
      obtain ⟨hclosed, hrow, hline⟩ := World.close_step hx hy
      obtain ⟨hclosed', hrow', hline'⟩ := World.close_step hz hy'
      refine .same ?_ (by rw [hrow, hrow', hsession]) (by rw [hline, hline', honline])
      rw [hclosed, hclosed']
      split <;> rfl

omit ha in
/-- What an own thread does is to serve its request, or to work on the session. -/
theorem own_duty (hh : h.Hosts c id) (hdistinct : h.world.Distinct) (ht : t ∈ h.own id)
    (hd : d ∈ h.world.agenda t) :
    (∃ r, r.opens = false ∧ r.header.get sessionField = id ∧ d = .serve r) ∨ d.touches? = some c := by
  obtain ⟨r, hr, hfor⟩ := Books.mem_own.1 ht
  have hsession : r.header.get sessionField = id := by simpa [Request.isFor] using hfor
  have hdrains : r.opens = false := by
    obtain ⟨hempty, hnull⟩ := hh.sound.tabled.named c id hh.named
    simp [Request.opens, hsession, hempty, hnull]
  cases hh.fits t (some r) hr d hd with
  | serves r => exact Or.inl ⟨r, hdrains, hsession, rfl⟩
  | @drains _ _ c' _ hc hid' =>
    obtain rfl : c' = c := World.distinct_iff.1 hdistinct c' c id (hsession ▸ hid') hh.named
    exact Or.inr hc
  | aside ho =>
    rw [ho r rfl] at hdrains
    cases hdrains

omit ha in
/-- While nobody drains the session, nothing works on it. -/
theorem touches?_ne_of_undrained (hh : h.Echoes)
    (hundrained : ∀ t, ∀ d ∈ h.world.agenda t, d.session? ≠ some c) (hagenda : h.world.agenda t = d :: rest) :
    d.touches? ≠ some c := by
  intro hc
  rcases Duty.touches?_eq_some hc with ⟨event, m, rfl⟩ | hsession
  · obtain ⟨hunlock, -⟩ := hh.echoing t _ rest c m hagenda rfl
    refine hundrained t (.unlock c) ?_ rfl
    rw [hagenda]
    exact List.mem_cons_of_mem _ hunlock
  · refine hundrained t d ?_ hsession
    rw [hagenda]
    exact List.mem_cons_self

/-- At the same time the session is found in both histories or in none. -/
theorem SameFor.liveSession? (hh : h.Echoes) (hk : k.Echoes)
    (hunique : ∀ e, h.world.idOf? e = some id → e = c) (hunique' : ∀ e, k.world.idOf? e = some id → e = c)
    (hnow : k.world.now = h.world.now) : k.world.liveSession? id = h.world.liveSession? id := by
  cases ha.agree with
  | same hconn hsession honline =>
    exact World.liveSession?_congr hnow hconn hsession honline fun d hd => hunique d (hh.sound.tabled.sessions id d hd)
  | left hw hv =>
    rw [hnow, max_self] at hw hv
    have hfaded : k.world.Faded c := World.Expirable.iff_faded.1 (hnow ▸ hv)
    rw [(World.Expirable.iff_faded.1 hw).liveSession? hh.sound.tabled hunique,
      hfaded.liveSession? hk.sound.tabled hunique']

/-- A request of the session is served in both histories. -/
theorem SameFor.serves (hnow : k.world.now = h.world.now)
    (hx : h.world.Next t x (.serve r) rest) (hz : k.world.Next u x (.serve r) rest) (hdrains : r.opens = false)
    (hlive : k.world.liveSession? (r.header.get sessionField) = h.world.liveSession? (r.header.get sessionField)) :
    (k.world.stepThread u).threads[u]? = (h.world.stepThread t).threads[t]? ∧
      World.Agree c id (h.world.stepThread t) (k.world.stepThread u) := by
  have hpopped : (k.world.pop u rest).threads[u]? = (h.world.pop t rest).threads[t]? := by
    rw [World.threads_pop hx.thread, World.threads_pop hz.thread]
  have hserve := World.serve_congr hpopped hdrains hlive
  have hstep : h.world.stepThread t = (h.world.pop t rest).serve t r := hx.step_eq
  have hstep' : k.world.stepThread u = (k.world.pop u rest).serve u r := hz.step_eq
  rw [← hstep, ← hstep'] at hserve
  obtain ⟨hthread, ⟨hconns, hsessions, honlines⟩, hconns', hsessions', honlines'⟩ := hserve
  refine ⟨hthread, ?_⟩
  cases ha.agree with
  | same hconn hsession honline =>
    refine .same ?_ (by rw [hsessions, hsessions']; exact hsession) (by rw [honlines, honlines']; exact honline)
    rw [World.conn?, World.conn?, hconns, hconns']
    exact hconn
  | left hw hv hpending =>
    rw [hnow, max_self] at hw hv
    have hleft := World.Expirable.iff_faded.2 ((World.Expirable.iff_faded.1 hw).step hx)
    have hfaded : k.world.Faded c := World.Expirable.iff_faded.1 (hnow ▸ hv)
    have hleft' := World.Expirable.iff_faded.2 (hfaded.step hz)
    refine .left (hleft.mono (le_max_left _ _)) (hleft'.mono (le_max_right _ _)) ?_
    rw [World.pendingOf_of_conns_eq hconns', World.pendingOf_of_conns_eq hconns]
    exact hpending

/-- A thread that serves a request of the session goes on in both histories, at the same time. -/
theorem SameFor.step (hh : h.Hosts c id) (hk : k.Hosts c id)
    (ht : (h.own id)[i]? = some t) (hu : (k.own id)[i]? = some u)
    (hready : h.world.ready t = true) (hready' : k.world.ready u = true) (hnow : k.world.now = h.world.now)
    (hdistinct : (h.after (.step t)).world.Distinct) (hdistinct' : (k.after (.step u)).world.Distinct) :
    SameFor c id (h.after (.step t)) (k.after (.step u)) := by
  obtain ⟨x, d, rest, hx⟩ := World.agenda_of_ready hready
  have hz : k.world.Next u x d rest := by
    have hsame := ha.threads i
    rw [ownThread?, ownThread?, ht, hu, Option.bind_some, Option.bind_some, hx.thread] at hsame
    exact ⟨hsame, hx.agenda⟩
  have hworld := world_after_step hready
  have hworld' := world_after_step hready'
  -- it is enough to know what becomes of the thread and of the session
  have hsuffices : (k.world.stepThread u).threads[u]? = (h.world.stepThread t).threads[t]? →
      World.Agree c id (h.world.stepThread t) (k.world.stepThread u) →
      SameFor c id (h.after (.step t)) (k.after (.step u)) := by
    intro hthread hagree
    refine ⟨by rw [settings_after_step hready', settings_after_step hready, ha.settings],
      by rw [own_after_step, own_after_step, ha.count], fun j => ?_, by rwa [hworld, hworld']⟩
    rw [ownThread?_of_changed own_after_step ht, ownThread?_of_changed own_after_step hu, hworld, hworld', hthread,
      ha.threads j]
    · rw [hworld']
      exact hz.effect.others
    · rw [hworld]
      exact hx.effect.others
  have hdistinct₀ : h.world.Distinct := hdistinct.of_kept fun _ _ hc => h.idOf?_after _ hc
  have hdistinct₁ : k.world.Distinct := hdistinct'.of_kept fun _ _ hc => k.idOf?_after _ hc
  rcases own_duty hh hdistinct₀ (List.mem_of_getElem? ht) hx.mem with
    ⟨r, hdrains, rfl, rfl⟩ | htouches
  · have hlive := ha.liveSession? hh.toEchoes hk.toEchoes
      (fun e he => World.distinct_iff.1 hdistinct₀ e c _ he hh.named)
      (fun e he => World.distinct_iff.1 hdistinct₁ e c _ he hk.named) hnow
    obtain ⟨hthread, hagree⟩ := ha.serves hnow hx hz hdrains hlive
    exact hsuffices hthread hagree
  · cases ha.agree with
    | left hw =>
      exact absurd htouches (touches?_ne_of_undrained hh.toEchoes hw.undrained hx.agenda_eq)
    | same hconn hsession honline =>
      have hpops : World.Alike c id t u (h.world.pop t rest) (k.world.pop u rest) :=
        ⟨ha.settings, hk.handlers.trans hh.handlers.symm, hnow,
          by rw [World.threads_pop hx.thread, World.threads_pop hz.thread], hconn, hsession, honline⟩
      have hafter := hpops.discharge htouches x
      rw [← hx.step_eq, ← hz.step_eq] at hafter
      exact hsuffices hafter.thread (.same hafter.conn hafter.session hafter.online)

end

/-- What a move is that is something for the session. -/
inductive Shows (h : History) (c : Nat) (id : String) : Move → SessionEvent → Prop
  | request {r : Request} (hfor : r.isFor id = true) : Shows h c id (.request r) (.request r)
  | step {i t : Nat} (ht : (h.own id)[i]? = some t) (hready : h.world.ready t = true) :
    Shows h c id (.step t) (.step i h.world.now)
  | cancel {i t : Nat} (ht : (h.own id)[i]? = some t) : Shows h c id (.cancel t) (.cancel i)
  | sever {i t : Nat} (ht : (h.own id)[i]? = some t) : Shows h c id (.sever t) (.sever i)
  | prefer {i t : Nat} {reason : Poll.Wake} (ht : (h.own id)[i]? = some t) :
    Shows h c id (.prefer t reason) (.prefer i reason)
  | hangup {t : Nat} {x : Thread} {rest : List Duty} (ht : t ∉ h.own id) (hready : h.world.ready t = true)
    (hx : h.world.Next t x (.close c) rest) : Shows h c id (.step t) .hangup

theorem shows_of_sessionEvent {g : SessionEvent} (hg : h.sessionEvent? c id m = some g) : h.Shows c id m g := by
  have hidx : ∀ {t : Nat}, t ∈ h.own id → (h.own id)[(h.own id).idxOf t]? = some t := fun ht =>
    List.getElem?_idxOf ht
  cases m with
  | request r =>
    rw [sessionEvent?] at hg
    split at hg
    next hfor =>
      cases hg
      exact .request hfor
    next => cases hg
  | step t =>
    rw [sessionEvent?] at hg
    split at hg
    next hready =>
      split at hg
      next ht =>
        cases hg
        exact .step (hidx ht) hready
      next ht =>
        split at hg
        next hhangs =>
          cases hg
          obtain ⟨x, d, rest, hx⟩ := World.agenda_of_ready hready
          rw [World.hangsUp, hx.agenda_eq] at hhangs
          cases d with
          | close c' =>
            obtain rfl : c' = c := by
              rw [Bool.and_eq_true, beq_iff_eq] at hhangs
              exact hhangs.1
            exact .hangup ht hready hx
          | _ => cases hhangs
        next => cases hg
    next => cases hg
  | cancel t | sever t | prefer t =>
    rw [sessionEvent?] at hg
    split at hg
    next ht =>
      cases hg
      constructor
      exact hidx ht
    next => cases hg
  | _ => cases hg

/-- Moves that are the same for the session keep the histories the same for it. -/
theorem SameFor.shown (ha : SameFor c id h k) (hh : h.Hosts c id) (hk : k.Hosts c id)
    (hdistinct : (h.after m).world.Distinct) (hdistinct' : (k.after m').world.Distinct) {g : SessionEvent}
    (hg : h.Shows c id m g) (hg' : k.Shows c id m' g) : SameFor c id (h.after m) (k.after m') := by
  cases hg with
  | request hfor =>
    cases hg'
    exact ha.request hh.toEchoes hk.toEchoes hfor
  | step ht hready =>
    generalize hnow : h.world.now = now at hg'
    cases hg' with
    | step hu hready' => exact ha.step hh hk ht hu hready hready' hnow.symm hdistinct hdistinct'
  | cancel ht | sever ht | prefer ht =>
    cases hg'
    next hu =>
      exact ha.flag (rests_after hh.sound.aligned rfl (by simp)) (rests_after hk.sound.aligned rfl (by simp)) ht hu
        rfl rfl
  | hangup ht hready hx =>
    cases hg' with
    | hangup hu hready' hz =>
      exact ha.hangup hh hk hready hready' ht hu hx hz hdistinct hdistinct'

/-! ## Whole runs -/

theorem distinct_of_foldl {moves : List Move} (hdistinct : (moves.foldl History.after h).world.Distinct) :
    h.world.Distinct :=
  hdistinct.of_kept fun _ _ hc => h.idOf?_foldl moves hc

theorem views_of_hidden (hg : h.sessionEvent? c id m = none) (more : List Move) :
    h.views c id (m :: more) = (h.after m).views c id more ∧
      h.sights c id (m :: more) = (h.after m).sights c id more := by
  constructor
  · rw [views, hg, Option.toList_none, List.nil_append]
  · rw [sights, hg, Option.isSome_none, if_neg Bool.false_ne_true, List.nil_append]

theorem views_of_shown {g : SessionEvent} (hg : h.sessionEvent? c id m = some g) (more : List Move) :
    h.views c id (m :: more) = g :: (h.after m).views c id more ∧
      h.sights c id (m :: more) = (h.after m).sight c id :: (h.after m).sights c id more := by
  constructor
  · rw [views, hg, Option.toList_some, List.singleton_append]
  · rw [sights, hg, Option.isSome_some, if_pos rfl, List.singleton_append]

/-- Runs that are the same for a session look the same to it. -/
theorem SameFor.sights (ha : SameFor c id h k) (hh : h.Hosts c id) (hk : k.Hosts c id)
    {back back' : List Move} (hback : ∀ m ∈ back, m.serves = true)
    (hback' : ∀ m ∈ back', m.serves = true) (hdistinct : (back.foldl History.after h).world.Distinct)
    (hdistinct' : (back'.foldl History.after k).world.Distinct) (hviews : h.views c id back = k.views c id back') :
    k.sights c id back' = h.sights c id back ∧
      (back'.foldl History.after k).sight c id = (back.foldl History.after h).sight c id := by
  induction back generalizing h k back' with
  | nil =>
    -- what is left of the second run is nothing for the session
    induction back' generalizing k with
    | nil => exact ⟨rfl, ha.sight⟩
    | cons m' more' ih' =>
      obtain ⟨hm', hmore'⟩ := List.forall_mem_cons.1 hback'
      have hnext : (k.after m').world.Distinct := distinct_of_foldl hdistinct'
      cases hg' : k.sessionEvent? c id m' with
      | some g' =>
        rw [(views_of_shown hg' more').1] at hviews
        cases hviews
      | none =>
        obtain ⟨hv, hs⟩ := views_of_hidden hg' more'
        rw [hv] at hviews
        rw [hs]
        exact ih' (ha.symm.hidden hk hh hm' hnext hg').symm (hk.after hm') hmore' hdistinct' hviews
  | cons m more ih =>
    obtain ⟨hm, hmore⟩ := List.forall_mem_cons.1 hback
    have hfirst : (h.after m).world.Distinct := distinct_of_foldl hdistinct
    cases hg : h.sessionEvent? c id m with
    | none =>
      obtain ⟨hv, hs⟩ := views_of_hidden hg more
      rw [hv] at hviews
      rw [hs]
      exact ih (ha.hidden hh hk hm hfirst hg) (hh.after hm) hk hmore hback' hdistinct hdistinct' hviews
    | some g =>
      -- the second run comes to a move that is the same for the session
      obtain ⟨hv, hs⟩ := views_of_shown hg more
      induction back' generalizing k with
      | nil =>
        cases hv.symm.trans hviews
      | cons m' more' ih' =>
        obtain ⟨hm', hmore'⟩ := List.forall_mem_cons.1 hback'
        have hnext : (k.after m').world.Distinct := distinct_of_foldl hdistinct'
        cases hg' : k.sessionEvent? c id m' with
        | none =>
          obtain ⟨hv', hs'⟩ := views_of_hidden hg' more'
          rw [hv'] at hviews
          rw [hs']
          exact ih' (ha.symm.hidden hk hh hm' hnext hg').symm (hk.after hm') hmore' hdistinct' hviews
        | some g' =>
          obtain ⟨hv', hs'⟩ := views_of_shown hg' more'
          rw [hv, hv', List.cons.injEq] at hviews
          obtain ⟨rfl, hviews⟩ := hviews
          have hsame := ha.shown hh hk hfirst hnext (shows_of_sessionEvent hg) (shows_of_sessionEvent hg')
          obtain ⟨hsights, hlast⟩ := ih hsame (hh.after hm) (hk.after hm') hmore hmore' hdistinct hdistinct' hviews
          rw [hs, hs', hsights, hsame.sight]
          exact ⟨rfl, hlast⟩

end History

/-- Sessions of an echo server are isolated from each other. Take a session that is established, and two runs that go
on from there in which the same happens to it: the same requests come in, and the threads that serve them go on
in the same order and at the same times. Whatever else happens in them, all answers that the session gets are the
same in both, and so is its queue after each of these events and in the end. Its answers bring back nothing but
messages of its own drains, in the order in which it has sent them. -/
theorem echo_sessions_isolated (config : ServerConfig) (ids : Ids) (front back back' : List Move) (c : Nat)
    (id : String) (hecho : config.broadcast = false) (hfront : ∀ m ∈ front, m.serves = true)
    (hback : ∀ m ∈ back, m.serves = true) (hback' : ∀ m ∈ back', m.serves = true) :
    let h := front.foldl History.after (.ofConfig config ids)
    let k := back.foldl History.after h
    let k' := back'.foldl History.after h
    h.world.idOf? c = some id → k.world.Distinct → k'.world.Distinct → h.views c id back = h.views c id back' →
      h.sights c id back' = h.sights c id back ∧ k'.sight c id = k.sight c id ∧
      ∃ order, k.Returns c order ∧
        ∀ early late, front ++ back = early ++ late → ∀ t ∈ order, ∀ t' ∈ order,
          let e := early.foldl History.after (.ofConfig config ids)
          t < e.world.threads.length → e.world.agenda t = [] → e.world.threads.length ≤ t' →
            [t, t'].Sublist order := by
  intro h k k' hid hdistinct hdistinct' hviews
  have hh : h.Echoes := (History.Echoes.ofConfig hecho ids).foldl hfront
  have hsame : History.SameFor c id h h := ⟨rfl, rfl, fun _ => rfl, .same rfl rfl rfl⟩
  obtain ⟨hsights, hlast⟩ := hsame.sights ⟨hh, hid⟩ ⟨hh, hid⟩ hback hback' hdistinct hdistinct' hviews
  have hall : ∀ m ∈ front ++ back, m.serves = true := List.forall_mem_append.2 ⟨hfront, hback⟩
  have hk : k = (front ++ back).foldl History.after (.ofConfig config ids) := List.foldl_append.symm
  obtain ⟨order, hreturns, hsorted⟩ := History.returns_run hecho ids hall c (hk ▸ hdistinct)
  exact ⟨hsights, hlast, order, hk ▸ hreturns, hsorted⟩

/-- A session is opened. -/
def opened : List Move := .request Chronicle.opening :: Watch.steps 0 4

/-- The session is drained with one message. -/
def drained : List Move := .request (Chronicle.batch ["hi"]) :: Watch.steps 1 9

/-- The same, while another session is opened and drained, a request is refused, the clock goes on and sessions that
have expired are looked for. -/
def crowded : List Move :=
  .request Chronicle.opening :: .request (Chronicle.batch ["hi"]) :: Watch.steps 1 4 ++ Watch.steps 2 4 ++
    .request { method := "POST"
               header := ({} : Header).set sessionField (Ids.draw (Ids.draw {}).2).1
               body := DrainRequest.body ⟨(Ids.draw (Ids.draw {}).2).1, defaultProtocol, ["ho", "hum"]⟩ } ::
    Watch.steps 3 12 ++ .request { method := "GET", header := {}, body := [] } :: Watch.steps 4 1 ++
    Watch.steps 2 5 ++ .clock 7 :: .sweep :: Watch.steps 5 9

theorem echo_sessions_isolated_crowded :
    let h := opened.foldl History.after (.ofConfig hasty.server {})
    let k := drained.foldl History.after h
    let k' := crowded.foldl History.after h
    let id := (Ids.draw {}).1
    k.world.conns.length = 1 ∧ k'.world.conns.length = 2 ∧ k'.world.sessions.length = 0 ∧
      h.views 0 id drained = h.views 0 id crowded ∧ h.sights 0 id crowded = h.sights 0 id drained ∧
      (k'.sight 0 id).queue = [] ∧
      (k'.sight 0 id).answers.map (Option.map Answer.body) = [some (drainResponseBody ["hi"])] := by
  have hbefore :
      let h := opened.foldl History.after (.ofConfig hasty.server {})
      h.world.idOf? 0 = some (Ids.draw {}).1 ∧
        h.views 0 (Ids.draw {}).1 drained = h.views 0 (Ids.draw {}).1 crowded := by
    decide +kernel
  have hlone :
      let k := drained.foldl History.after (opened.foldl History.after (.ofConfig hasty.server {}))
      k.world.Distinct ∧ k.world.conns.length = 1 ∧ (k.sight 0 (Ids.draw {}).1).queue = [] ∧
        (k.sight 0 (Ids.draw {}).1).answers.map (Option.map Answer.body) = [some (drainResponseBody ["hi"])] := by
    decide +kernel
  have hcrowded :
      let k := crowded.foldl History.after (opened.foldl History.after (.ofConfig hasty.server {}))
      k.world.Distinct ∧ k.world.conns.length = 2 ∧ k.world.sessions.length = 0 := by
    decide +kernel
  have hmoves : (∀ m ∈ opened, m.serves = true) ∧ (∀ m ∈ drained, m.serves = true) ∧
      ∀ m ∈ crowded, m.serves = true := by
    decide +kernel
  obtain ⟨hopened, hdrained, hothers⟩ := hmoves
  have hisolated := echo_sessions_isolated hasty.server {} opened drained crowded 0 (Ids.draw {}).1 rfl hopened
    hdrained hothers
  -- from here on only these facts about the runs matter
  generalize opened.foldl History.after (.ofConfig hasty.server {}) = h at hbefore hlone hcrowded hisolated ⊢
  obtain ⟨hid, hviews⟩ := hbefore
  obtain ⟨hdistinct, hone, hqueue, hanswers⟩ := hlone
  obtain ⟨hdistinct', htwo, hswept⟩ := hcrowded
  obtain ⟨hsights, hlast, -⟩ := hisolated hid hdistinct hdistinct' hviews
  refine ⟨hone, htwo, hswept, hviews, hsights, ?_, ?_⟩
  · rw [hlast, hqueue]
  · rw [hlast, hanswers]

end PollSocket.Server
