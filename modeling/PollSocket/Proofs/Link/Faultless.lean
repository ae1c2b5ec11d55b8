import PollSocket.Proofs.Link.Delivery
import PollSocket.Proofs.Socket.Callbacks

set_option autoImplicit false

/-!
# What is between a socket and a server

Messages between the two sides, by calls: what the handlers of the server were told and what was taken
for a call comes from the thread that serves it, and of the outstanding call something may be left to
tell (`State.unheard`) or on its way back (`State.transit`).

`Faultless` says of a state what a run without faults promises: the session of the socket is alive and
nobody else uses it, and every body arrives whole. Then the session admits the drains of the socket
(`Linked.serve`), a response brings what was taken (`Linked.brings`), and threads of others have no part
in the connection of the socket (`Linked.foreign`).
-/

namespace PollSocket.Link

variable {c k t : Nat} {x : Socket.Call} {l l' : State}

namespace State

/-- Connections that requests of the socket have opened. -/
def conns (l : State) : List Nat := l.errands.flatMap fun e => l.server.begunBy e.2

/-- The thread that serves a call. -/
def thread? (l : State) (call : Nat) : Option Nat := l.errands.lookup call

/-- Entries of the thread that serves a call. -/
def entriesFor {α : Type} (l : State) (call : Nat) (entries : List (Nat × α)) : List α :=
  (l.thread? call).elim [] fun t => Server.entriesOf t entries

/-- What the handlers of the server were told for a call. -/
def toldOf (l : State) (call : Nat) : List (Nat × String) := l.entriesFor call l.server.told

/-- What was taken for a call. -/
def takenOf (l : State) (call : Nat) : List (Nat × List String) := l.entriesFor call l.server.takes

/-- Messages of an outstanding call that the handlers were not told of yet. -/
def unheardOf (l : State) (call : Nat) : List String :=
  if Socket.completed l.client.taken call then []
  else (l.client.world.batch call).drop (l.toldOf call).length

/-- Messages that were taken for an outstanding call: they are on their way to the socket. -/
def transitOf (l : State) (call : Nat) : List String :=
  if Socket.completed l.client.taken call then [] else ((l.takenOf call).map (·.2)).flatten

def unheard (l : State) : List String := (l.client.world.callsOf 0).flatMap l.unheardOf

def transit (l : State) : List String := (l.client.world.callsOf 0).flatMap l.transitOf

/-- What was taken for requests of the socket, and from where. -/
def took (l : State) : List (Nat × List String) := l.ours l.server.takes

theorem mem_conns : c ∈ l.conns ↔ ∃ k t, (k, t) ∈ l.errands ∧ c ∈ l.server.begunBy t := by
  simp [conns]

theorem ours_congr {α : Type} (h : l'.errands = l.errands) (entries : List (Nat × α)) :
    l'.ours entries = l.ours entries := by
  have hserves : l'.serves = l.serves := by
    funext t
    rw [serves, serves, h]
  rw [ours, ours, hserves]

theorem entriesFor_congr {α : Type} (h : l'.errands = l.errands) (k : Nat) (entries : List (Nat × α)) :
    l'.entriesFor k entries = l.entriesFor k entries := by
  rw [entriesFor, entriesFor, thread?, thread?, h]

theorem unheard_congr (hclient : l'.client = l.client) (htold : ∀ k, l'.toldOf k = l.toldOf k) :
    l'.unheard = l.unheard := by
  rw [unheard, hclient]
  refine List.flatMap_congr fun k _ => ?_
  rw [unheardOf, unheardOf, hclient, htold]

theorem transit_congr (hclient : l'.client = l.client) (htaken : ∀ k, l'.takenOf k = l.takenOf k) :
    l'.transit = l.transit := by
  rw [transit, hclient]
  refine List.flatMap_congr fun k _ => ?_
  rw [transitOf, transitOf, hclient, htaken]

theorem mem_of_thread? (h : l.thread? k = some t) : (k, t) ∈ l.errands := by
  obtain ⟨before, behind, herrands, -⟩ := List.lookup_eq_some_iff.1 h
  simp [herrands]

/-- A thread that does not serve the socket enters nothing for its calls. -/
theorem entriesFor_concat_of_not_serves {α : Type} (h : l.serves t = false) (k : Nat)
    (entries : List (Nat × α)) (a : α) : l.entriesFor k (entries ++ [(t, a)]) = l.entriesFor k entries := by
  unfold entriesFor
  cases hthread : l.thread? k with
  | none => rfl
  | some u =>
    have hne : ¬ t = u := by
      rintro rfl
      rw [serves_iff.2 ⟨k, mem_of_thread? hthread⟩] at h
      cases h
    show Server.entriesOf u (entries ++ [(t, a)]) = Server.entriesOf u entries
    rw [Server.entriesOf_append, Server.entriesOf_singleton, if_neg hne, List.append_nil]

/-- A thread that has entered nothing begins to serve a call. -/
theorem entriesFor_request {α : Type} (l : State) (s : Server.History) (k : Nat) {entries : List (Nat × α)}
    (h : Server.entriesOf t entries = []) (c : Nat) :
    ({ l with server := s, errands := l.errands ++ [(k, t)] } : State).entriesFor c entries =
      l.entriesFor c entries := by
  show ((l.errands ++ [(k, t)]).lookup c).elim [] _ = (l.errands.lookup c).elim [] _
  rw [List.lookup_append]
  cases l.errands.lookup c with
  | some u => rfl
  | none =>
    by_cases hck : c = k
    · simp [hck, h]
    · simp [beq_eq_false_iff_ne.2 hck]

end State

/-- Nothing is wrong. -/
structure Faultless (l : State) : Prop where
  /-- The session of the socket is neither closed nor expired. -/
  live : ∀ c ∈ l.conns, ∀ id ∈ l.server.world.idOf? c, l.server.world.liveSession? id = some c
  /-- Nobody else names it. -/
  alone : ∀ e ∈ l.server.origins.zipIdx, l.serves e.2 = true ∨
    ∀ r ∈ e.1, ∀ c ∈ l.conns, l.server.world.idOf? c ≠ some (r.header.get sessionField)
  /-- Responses arrive whole. -/
  written : ∀ e ∈ l.errands, ∀ y ∈ l.server.world.threads[e.2]?,
    y.unwritable = false ∧ y.answer.body.length ≤ maxBody
  /-- Requests arrive whole. -/
  fits : ∀ x ∈ l.client.world.calls, x.exchange.bytes.length ≤ maxBody

instance (l : State) : Decidable (Faultless l) :=
  decidable_of_iff
    (((∀ c ∈ l.conns, ∀ id ∈ l.server.world.idOf? c, l.server.world.liveSession? id = some c) ∧
      ∀ e ∈ l.server.origins.zipIdx, l.serves e.2 = true ∨
        ∀ r ∈ e.1, ∀ c ∈ l.conns, l.server.world.idOf? c ≠ some (r.header.get sessionField)) ∧
    (∀ e ∈ l.errands, ∀ y ∈ l.server.world.threads[e.2]?,
      y.unwritable = false ∧ y.answer.body.length ≤ maxBody) ∧
    ∀ x ∈ l.client.world.calls, x.exchange.bytes.length ≤ maxBody)
    ⟨fun ⟨⟨h₁, h₂⟩, h₃, h₄⟩ => ⟨h₁, h₂, h₃, h₄⟩,
      fun h => ⟨⟨h.live, h.alone⟩, h.written, h.fits⟩⟩

namespace Linked

variable {o : Socket.Options}

variable (h : Linked o l)
include h

section

variable (hkt : (k, t) ∈ l.errands)
include hkt

theorem thread?_eq : l.thread? k = some t := by
  obtain ⟨before, behind, herrands⟩ := List.append_of_mem hkt
  refine List.lookup_eq_some_iff.2 ⟨before, behind, herrands, fun p hp => ?_⟩
  have hnodup := h.calls
  rw [herrands, List.map_append, List.nodup_append] at hnodup
  have hne := hnodup.2.2 p.1 (List.mem_map_of_mem hp) k List.mem_cons_self
  simpa using hne.symm

theorem entriesFor_eq {α : Type} (entries : List (Nat × α)) :
    l.entriesFor k entries = Server.entriesOf t entries := by
  rw [State.entriesFor, h.thread?_eq hkt]
  rfl

theorem toldOf_eq : l.toldOf k = l.server.toldBy t :=
  h.entriesFor_eq hkt _

theorem takenOf_eq : l.takenOf k = l.server.takesBy t :=
  h.entriesFor_eq hkt _

omit h hkt in
theorem entriesFor_eq_nil {α : Type} (hk : ∀ t, (k, t) ∉ l.errands) (entries : List (Nat × α)) :
    l.entriesFor k entries = [] := by
  have hnone : l.thread? k = none := by
    cases hthread : l.thread? k with
    | none => rfl
    | some t => exact absurd (State.mem_of_thread? hthread) (hk t)
  rw [State.entriesFor, hnone]
  rfl

/-- Errands are those of calls that were issued. -/
theorem call_lt : k < l.client.world.calls.length := by
  obtain ⟨x, -, hx, -⟩ := h.served k t hkt
  exact (List.getElem?_eq_some_iff.1 hx).1

/-- The thread of a handshake takes nothing. -/
theorem takes_of_handshake
    (hx : l.client.world.calls[k]? = some x) (hbatch : x.batch = none) : l.server.takesBy t = [] := by
  have hlt := h.thread_lt hkt
  obtain ⟨x', r, hx', hr, hcourse⟩ := h.course hkt (List.getElem?_eq_getElem hlt)
  cases hx'.symm.trans hx
  have hopens := h.opens hx hr hbatch
  -- entries are made variables, since a course speaks of them in its indices
  generalize l.server.begunBy t = begun at hcourse
  generalize l.server.takesBy t = takes at hcourse ⊢
  generalize l.server.toldBy t = told at hcourse
  cases hcourse with
  | draining hadmitted =>
    have hdrains := hadmitted.drains
    cases hopens.symm.trans hdrains
  | _ => rfl

end

section

variable (hx : l.client.world.calls[k]? = some x) (hopen : Socket.completed l.client.taken k = false)
include hx hopen

/-- All calls but the outstanding one are completed. -/
theorem flatMap_outstanding {f : Nat → List String}
    (hf : ∀ c, Socket.completed l.client.taken c = true → f c = []) :
    (l.client.world.callsOf 0).flatMap f = f k := by
  obtain ⟨older, hof, holder⟩ := h.sound.flights.callsOf_of_flying hx hopen
  rw [h.owner hx] at hof
  have hnil : older.flatMap f = [] := List.flatMap_eq_nil_iff.2 fun c hc => hf c (holder c hc).2
  rw [hof, List.flatMap_append, hnil, List.flatMap_singleton, List.nil_append]

theorem unheard_eq : l.unheard = (l.client.world.batch k).drop (l.toldOf k).length := by
  have hlast := h.flatMap_outstanding hx hopen (f := l.unheardOf) fun c hc => if_pos hc
  exact hlast.trans (if_neg (by simp [hopen]))

theorem transit_eq : l.transit = ((l.takenOf k).map (·.2)).flatten := by
  have hlast := h.flatMap_outstanding hx hopen (f := l.transitOf) fun c hc => if_pos hc
  exact hlast.trans (if_neg (by simp [hopen]))

end

/-- A call opens one connection at most, and only the handshake does. -/
theorem conns_unique {c' : Nat} (hc : c ∈ l.conns) (hc' : c' ∈ l.conns) : c = c' := by
  -- whoever opens a connection of the socket is the handshake, and opens no other
  have hopener : ∀ {k t c}, (k, t) ∈ l.errands → c ∈ l.server.begunBy t →
      l.server.begunBy t = [c] ∧ ∃ x, l.client.world.calls[k]? = some x ∧ x.batch = none := by
    intro k t c hkt hmem
    have hlt := h.thread_lt hkt
    obtain ⟨x, r, hx, hr, hcourse⟩ := h.course hkt (List.getElem?_eq_getElem hlt)
    generalize l.server.begunBy t = begun at hcourse hmem ⊢
    generalize l.server.takesBy t = takes at hcourse
    generalize l.server.toldBy t = told at hcourse
    cases hcourse with
    | greeting hopens | greeted hopens =>
      rw [List.mem_singleton.1 hmem]
      exact ⟨rfl, x, hx, h.batch_eq_none_of_opens hx hr hopens⟩
    | _ => cases hmem
  obtain ⟨k, t, hkt, hmem⟩ := State.mem_conns.1 hc
  obtain ⟨k', t', hkt', hmem'⟩ := State.mem_conns.1 hc'
  obtain ⟨hone, x, hx, hnone⟩ := hopener hkt hmem
  obtain ⟨-, x', hx', hnone'⟩ := hopener hkt' hmem'
  -- a socket has one handshake
  have hkk : k = k' :=
    h.sound.wired.once k k' x x' hx hx' ((h.owner hx).trans (h.owner hx').symm) hnone hnone'
  subst hkk
  have htt : t = t' := Option.some.inj ((h.thread?_eq hkt).symm.trans (h.thread?_eq hkt'))
  subst htt
  rw [hone, List.mem_singleton] at hmem'
  exact hmem'.symm

/-- Threads that do not serve the socket tell and take nothing in its connection. -/
theorem foreign (hf : Faultless l) (hc : c ∈ l.conns) (ht : l.serves t = false) :
    (∀ data, (t, c, data) ∉ l.server.told) ∧ ∀ messages, (t, c, messages) ∉ l.server.takes := by
  have hnone : ¬ ((∃ e ∈ l.server.toldBy t, e.1 = c) ∨ ∃ e ∈ l.server.takesBy t, e.1 = c) := by
    intro hsome
    have hlt : t < l.server.world.threads.length := by
      by_contra hge
      obtain ⟨hunborn, hunborn', -⟩ := h.server.unborn t (Nat.le_of_not_lt hge)
      rw [hunborn, hunborn'] at hsome
      rcases hsome with ⟨e, he, -⟩ | ⟨e, he, -⟩ <;> cases he
    obtain ⟨origin, horigin, hcourse⟩ := h.server.courses t _ (List.getElem?_eq_getElem hlt)
    -- the thread comes from a request of somebody else, which names no session of the socket
    have hzip : (origin, t) ∈ l.server.origins.zipIdx := by
      rw [List.mem_zipIdx_iff_getElem?]
      exact horigin
    rcases hf.alone _ hzip with hserves | hother
    · cases ht.symm.trans hserves
    generalize l.server.begunBy t = begun at hcourse
    generalize l.server.takesBy t = takes at hcourse hsome
    generalize l.server.toldBy t = told at hcourse hsome
    cases hcourse with
    | @draining r _ c' n q front rest taken hadmitted =>
      have heq : c' = c := by
        rcases hsome with ⟨e, he, rfl⟩ | ⟨e, he, rfl⟩
        · obtain ⟨m, -, rfl⟩ := List.mem_map.1 he
          rfl
        · obtain ⟨m, -, rfl⟩ := List.mem_map.1 he
          rfl
      exact hother r rfl c hc (heq ▸ hadmitted.session)
    | @interrupted r _ c' q front rest hadmitted =>
      have heq : c' = c := by
        rcases hsome with ⟨e, he, rfl⟩ | ⟨e, he, -⟩
        · obtain ⟨m, -, rfl⟩ := List.mem_map.1 he
          rfl
        · cases he
      exact hother r rfl c hc (heq ▸ hadmitted.session)
    | _ =>
      rcases hsome with ⟨e, he, -⟩ | ⟨e, he, -⟩ <;> cases he
  constructor
  · intro data hmem
    exact hnone (Or.inl ⟨_, Server.mem_entriesOf.2 hmem, rfl⟩)
  · intro messages hmem
    exact hnone (Or.inr ⟨_, Server.mem_entriesOf.2 hmem, rfl⟩)

/-- What the response to a drain brings is what its thread has taken. -/
theorem brings (hf : Faultless l) (hkt : (k, t) ∈ l.errands) {body : List UInt8}
    (hdone : Fulfilled l.server.world t body) :
    (Socket.Task.succeed k body).messages l.client.world 0 =
      ((l.server.takesBy t).map (·.2)).flatten := by
  obtain ⟨y, hy, hagenda, hthrown, hstatus, hbody⟩ := hdone
  obtain ⟨x, r, hx, hr, hcourse⟩ := h.course hkt hy
  cases hbatch : x.batch with
  | none =>
    rw [Socket.Task.messages_of_handshake hx hbatch, h.takes_of_handshake hkt hx hbatch]
    rfl
  | some batch =>
    rw [Socket.Task.messages_of_drain hx hbatch, if_pos (h.owner hx)]
    obtain ⟨-, -, -, hdrains, -⟩ := (h.errand hx hr).drains batch hbatch
    -- the body was written, and no limit has cut it
    obtain ⟨hwritable, hlength⟩ := hf.written _ hkt y hy
    rw [hbody, List.take_of_length_le hlength]
    rcases hcourse.succeeded hagenda hthrown hstatus with ⟨hopens, -⟩ | ⟨c, q, result, -, htakes, -, hwrote⟩
    · cases hdrains.symm.trans hopens
    · rw [htakes]
      cases result with
      | none =>
        rw [show y.answer.body = [] from hwrote]
        rfl
      | some messages =>
        rcases hwrote with hfull | ⟨hlost, -⟩
        · rw [hfull, decodeDrainResponse_body]
          simp
        · cases hwritable.symm.trans hlost

/-! ## What threads of the socket do -/

/-- The request of the socket is served: it opens its connection, or the connection that it has opened
admits it. -/
theorem serve (hf : Faultless l) (hkt : (k, t) ∈ l.errands) {y : Server.Thread} {r : Server.Request}
    {rest : List Server.Duty} (hy : l.server.world.Next t y (.serve r) rest) :
    ∃ x z, l.client.world.calls[k]? = some x ∧ (l.server.world.stepThread t).threads[t]? = some z ∧
      (x.batch ≠ none → z.answer = y.answer) ∧
      ∀ d ∈ z.agenda, ∀ c, d.session? = some c → c ∈ l.conns := by
  obtain ⟨x, r', hx, hr, hcourse⟩ := h.course hkt hy.thread
  obtain ⟨rfl, rfl⟩ := hcourse.eq_of_serve hy.agenda
  have hpop := Server.World.threads_pop hy.thread []
  have hstep : l.server.world.stepThread t = (l.server.world.pop t []).serve t (received r') :=
    hy.step_eq
  rw [hstep]
  refine ⟨x, ?_⟩
  cases hbatch : x.batch with
  | none =>
    rcases Server.World.serve_cases hpop (received r') with ⟨z, hz, hza, -⟩ | ⟨-, -, -, hz⟩ |
      ⟨c, q, hdrains, -⟩
    · refine ⟨z, hx, hz, fun hnone => absurd rfl hnone, ?_⟩
      rw [hza]
      simp
    · refine ⟨_, hx, hz, fun hnone => absurd rfl hnone, ?_⟩
      simp [Server.Duty.session?]
    · rw [h.opens hx hr hbatch] at hdrains
      cases hdrains
  | some batch =>
    -- the session is alive and the body arrives whole, so the drain is admitted
    obtain ⟨hplain, hmethod, -, hdrain⟩ := h.errand hx hr
    obtain ⟨id, protocol, hid, hdrains, hget, hbody⟩ := hdrain batch hbatch
    obtain ⟨k', t', c, hkt', hbegun, hconn⟩ := h.session hid
    have hc : c ∈ l.conns := State.mem_conns.2 ⟨k', t', hkt', by simp [hbegun]⟩
    have hlive : (l.server.world.pop t []).liveSession? id = some c := hf.live c hc id hconn
    have hdecode : decodeDrainRequest? ((received r').body.take maxBody) =
        some ⟨id, protocol, batch⟩ := by
      have hfits : (received r').body.length ≤ maxBody := by
        show r'.body.length ≤ maxBody
        rw [(parts_of_request hr).1.2]
        exact hf.fits x (List.mem_of_getElem? hx)
      rw [List.take_of_length_le hfits, hbody, decodeDrainRequest?_body]
    rw [Server.World.serve_drain hplain hmethod hdrains (hget ▸ hlive) hdecode hget.symm]
    refine ⟨_, hx, Server.World.threads_push hpop _, fun _ => rfl, ?_⟩
    simp [Server.Duty.session?, hc]

/-- The handlers are told of the next message of the outstanding batch, or of one of somebody else. -/
theorem tell (h' : Linked o l') (hclient : l'.client = l.client)
    (herrands : l'.errands = l.errands) {data : String}
    (htold : l'.server.told = l.server.told ++ [(t, c, data)])
    (hopen : ∀ k, (k, t) ∈ l.errands → Socket.completed l.client.taken k = false) :
    l'.seen.map (·.2) ++ l'.unheard = l.seen.map (·.2) ++ l.unheard := by
  have hseen : l'.seen = l.seen ++ if l.serves t then [(c, data)] else [] := by
    show l'.ours l'.server.told = _
    rw [htold, State.ours_congr herrands, State.ours_concat]
    rfl
  rw [hseen]
  cases hserves : l.serves t with
  | true =>
    obtain ⟨k, hkt⟩ := State.serves_iff.1 hserves
    have hkt' : (k, t) ∈ l'.errands := herrands ▸ hkt
    obtain ⟨x, rest, hx, hbatch, -⟩ := h'.told hkt'
    have htoldBy : l'.server.toldBy t = l.server.toldBy t ++ [(c, data)] := by
      rw [Server.Books.toldBy, htold, Server.entriesOf_append, Server.entriesOf_singleton, if_pos rfl]
      rfl
    -- what is unheard of the batch is what follows the part that was told
    have hleft : ∀ (told : List (Nat × String)) (more : List String),
        x.batch.getD [] = told.map (·.2) ++ more →
        (l.client.world.batch k).drop told.length = more := by
      intro told more hmore
      rw [Socket.World.batch, ← hclient, hx, Option.bind_some, hmore]
      exact List.drop_left' (by simp)
    have hnew : l'.unheard = rest := by
      rw [h'.unheard_eq hx (hclient ▸ hopen k hkt), h'.toldOf_eq hkt', hclient, hleft _ rest hbatch]
    have hold : l.unheard = data :: rest := by
      rw [h.unheard_eq (hclient ▸ hx) (hopen k hkt), h.toldOf_eq hkt]
      exact hleft _ (data :: rest) (by rw [hbatch, htoldBy]; simp)
    rw [hnew, hold]
    simp
  | false =>
    have hsame : l'.unheard = l.unheard := by
      refine State.unheard_congr hclient fun k => ?_
      show l'.entriesFor k l'.server.told = _
      rw [htold, State.entriesFor_congr herrands, State.entriesFor_concat_of_not_serves hserves]
      rfl
    rw [hsame, if_neg (by simp), List.append_nil]

/-- Messages are taken for the outstanding call, or by somebody else. -/
theorem take (h' : Linked o l') (hclient : l'.client = l.client)
    (herrands : l'.errands = l.errands) {messages : List String}
    (htakes : l'.server.takes = l.server.takes ++ [(t, c, messages)])
    (hopen : ∀ k, (k, t) ∈ l.errands → Socket.completed l.client.taken k = false) :
    ∃ news, (l'.took.map (·.2)).flatten = (l.took.map (·.2)).flatten ++ news ∧
      l'.transit = l.transit ++ news := by
  have htook : l'.took = l.took ++ if l.serves t then [(c, messages)] else [] := by
    rw [State.took, htakes, State.ours_congr herrands, State.ours_concat]
    rfl
  rw [htook]
  cases hserves : l.serves t with
  | true =>
    obtain ⟨k, hkt⟩ := State.serves_iff.1 hserves
    have hkt' : (k, t) ∈ l'.errands := herrands ▸ hkt
    obtain ⟨x, -, hx, -⟩ := h.served k t hkt
    have htakesBy : l'.server.takesBy t = l.server.takesBy t ++ [(c, messages)] := by
      rw [Server.Books.takesBy, htakes, Server.entriesOf_append, Server.entriesOf_singleton,
        if_pos rfl]
      rfl
    refine ⟨messages, by simp, ?_⟩
    rw [h'.transit_eq (hclient ▸ hx) (hclient ▸ hopen k hkt), h'.takenOf_eq hkt', htakesBy,
      h.transit_eq hx (hopen k hkt), h.takenOf_eq hkt]
    simp
  | false =>
    have hsame : l'.transit = l.transit := by
      refine State.transit_congr hclient fun k => ?_
      show l'.entriesFor k l'.server.takes = _
      rw [htakes, State.entriesFor_congr herrands, State.entriesFor_concat_of_not_serves hserves]
      rfl
    exact ⟨[], by simp, by rw [hsame, List.append_nil]⟩

end Linked

/-! ## Calls of the consumer -/

/-- Whenever a message is due to the consumer of the socket, the handler for messages is there. -/
def Attended (o : Socket.Options) (s : Server.History) (moves : List Move) : Prop :=
  ∀ front, front <+: moves → ∀ data,
    (run o s front).client.world.emitting? = some (0, .message data) →
    (run o s front).client.world.attends (0, .message data) = true

/-- The handler that is always there is called for all messages. -/
theorem messagesFor_callbacks (o : Socket.Options) (s : Server.History) (moves : List Move)
    (hattends : Attended o s moves) :
    Socket.messagesFor 0 (run o s moves).client.world.callbacks =
      Socket.messagesFor 0 (run o s moves).client.emitted := by
  induction moves using List.reverseRecOn with
  | nil => rfl
  | append_singleton more m ih =>
    have hmore : more <+: more ++ [m] := List.prefix_append more [m]
    have hattend := hattends more hmore
    replace ih := ih fun front hfront => hattends front (hfront.trans hmore)
    rw [run_concat]
    set l := run o s more
    have hclient : ∀ n, Socket.messagesFor 0 (l.client.after n).world.callbacks =
        Socket.messagesFor 0 (l.client.after n).emitted := by
      intro n
      rw [l.client.emitted_after, l.client.callbacks_after, Socket.messagesFor, Socket.messagesFor,
        List.filterMap_append, List.filterMap_append]
      refine congrArg₂ _ ih ?_
      rw [Option.toList_filter, List.filterMap_filter]
      -- the occasion that is due is not filtered out if it is a message for the socket
      refine List.filterMap_congr fun e he => ?_
      obtain ⟨r, event⟩ := e
      cases event with
      | message data =>
        by_cases hr : r = 0
        · subst hr
          rw [if_pos (hattend data (Socket.World.emitting?_of_due? (Option.mem_toList.1 he)))]
        · simp [hr]
      | opened | error | closed => simp [Socket.Event.message?]
    have hpasses := l.passes_after m
    generalize l.after m = l' at hpasses ⊢
    cases hpasses with
    | idle | server | request => exact ih
    | client | reply | lose => exact hclient _

end PollSocket.Link
