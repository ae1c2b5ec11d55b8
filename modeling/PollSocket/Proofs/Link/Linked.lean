import PollSocket.Proofs.Exchange
import PollSocket.Proofs.Link.History
import PollSocket.Proofs.Server.Sound
import PollSocket.Proofs.Socket.Growth
import PollSocket.Proofs.Wire

set_option autoImplicit false

/-!
# What connects a socket and a server

`Linked` is the invariant of a socket and a server: both are sound, every errand is the request of one
call and one thread serves it, and success is reported only of a thread that has come to its end with
success. It holds of every run (`linked_run`).

Two facts are drawn from it. The session of the socket is the id of a connection that one of its own
requests has opened (`Linked.session`). The thread of a drain tells the handlers of the batch of its
call, message by message, in the session of the socket, and has told all of it when it comes to its end
with success (`Linked.told`).
-/

namespace PollSocket.Link

variable {k t : Nat} {r : PollSocket.Request} {y : Server.Thread} {x : Socket.Call} {m : Socket.Move}
  {id : String}

/-- What a move does, if it is possible. -/
inductive State.Passes (l : State) : Move → State → Prop where
  | idle (m : Move) : Passes l m l
  | client {n : Socket.Move} (h : n.isLocal = true) :
    Passes l (.client n) { l with client := l.client.after n }
  | server (n : Server.Move) : Passes l (.server n) (l.afterServer n)
  | request {k : Nat} {x : Socket.Call} {r : PollSocket.Request}
    (hx : l.client.world.calls[k]? = some x) (hr : x.exchange.request {} = .ok r)
    (hfirst : ∀ t, (k, t) ∉ l.errands) :
    Passes l (.request k) { l with
      server := l.server.after (.request (received r))
      errands := l.errands ++ [(k, l.server.world.threads.length)] }
  | reply {k t : Nat} {x : Socket.Call} {y : Server.Thread} {n : Socket.Move}
    (hkt : (k, t) ∈ l.errands) (hx : l.client.world.calls[k]? = some x)
    (hy : l.server.world.threads[t]? = some y) (hn : report? k x y = some n) :
    Passes l (.reply k) { l with client := l.client.after n }
  | lose (k : Nat) : Passes l (.lose k) { l with client := l.client.after (.fail k) }

theorem State.passes_after (l : State) (m : Move) : l.Passes m (l.after m) := by
  cases m with
  | client m =>
    unfold after
    dsimp only
    split
    next hlocal => exact .client hlocal
    next => exact .idle _
  | server m => exact .server m
  | request k =>
    unfold after
    dsimp only
    split
    · exact .idle _
    next x hx =>
      split
      · exact .idle _
      next r hr =>
        split
        · exact .idle _
        next hfirst =>
          refine .request hx hr fun t hkt => hfirst ?_
          rw [List.any_eq_true]
          exact ⟨_, hkt, beq_self_eq_true k⟩
  | reply k =>
    unfold after
    dsimp only
    split
    next x y hx hthread =>
      obtain ⟨t, hkt, hy⟩ := Option.bind_eq_some_iff.1 hthread
      obtain ⟨before, behind, herrands, -⟩ := List.lookup_eq_some_iff.1 hkt
      split
      next m hm => exact .reply (by simp [herrands]) hx hy hm
      next => exact .idle _
    next => exact .idle _
  | lose k => exact .lose k

/-- The thread has come to its end with success, and `body` is what arrives of its answer. -/
def Fulfilled (w : Server.World) (t : Nat) (body : List UInt8) : Prop :=
  ∃ y, w.threads[t]? = some y ∧ y.agenda = [] ∧ y.thrown = none ∧
    isSuccess y.answer.status = true ∧ body = y.answer.body.take maxBody

/-- What holds of a socket and a server after every move. -/
structure Linked (o : Socket.Options) (l : State) : Prop where
  client : ∃ moves, l.client = .run moves
  server : Server.Sound l.server.toBooks l.server.world
  single : l.client.world.sockets.length = 1
  requeue : (l.client.world.socket 0).requeue = o.requeue
  calls : (l.errands.map (·.1)).Nodup
  threads : (l.errands.map (·.2)).Nodup
  served : ∀ k t, (k, t) ∈ l.errands → ∃ x r, l.client.world.calls[k]? = some x ∧
    x.exchange.request {} = .ok r ∧ l.server.origins[t]? = some (some (received r))
  reported : ∀ k body, Socket.Task.succeed k body ∈ l.client.reports →
    ∃ t, (k, t) ∈ l.errands ∧ Fulfilled l.server.world t body

namespace Linked

variable {o : Socket.Options} {l : State}

variable (h : Linked o l)
include h

theorem sound : Socket.Sound l.client.toBooks l.client.world := by
  obtain ⟨moves, hmoves⟩ := h.client
  rw [hmoves]
  exact Socket.sound_run moves

theorem consecutive : Socket.Consecutive l.client.toBooks l.client.world := by
  obtain ⟨moves, hmoves⟩ := h.client
  rw [hmoves]
  exact Socket.consecutive_run moves

/-- There is no other socket. -/
theorem owner (hx : l.client.world.calls[k]? = some x) : x.owner = 0 := by
  have hlt := h.sound.flights.owned k x hx
  rw [h.single] at hlt
  omega

/-! ## Moves -/

/-- The socket makes a move, and what is reported anew comes from a thread that has ended. -/
theorem move_client (m : Socket.Move)
    (hsize : (l.client.after m).world.sockets.length = l.client.world.sockets.length)
    (hreports : ∀ k body, Socket.Task.succeed k body ∈ (l.client.after m).reports →
      Socket.Task.succeed k body ∈ l.client.reports ∨
        ∃ t, (k, t) ∈ l.errands ∧ Fulfilled l.server.world t body) :
    Linked o { l with client := l.client.after m } where
  client := by
    obtain ⟨moves, hmoves⟩ := h.client
    refine ⟨moves ++ [m], ?_⟩
    show l.client.after m = _
    rw [hmoves, Socket.History.run_concat]
  __ := h
  single := hsize.trans h.single
  requeue := by
    refine ((l.client.extends_after m).requeue 0 ?_).trans h.requeue
    rw [h.single]
    exact Nat.one_pos
  served k t hkt := by
    obtain ⟨x, r, hx, hr, ho⟩ := h.served k t hkt
    obtain ⟨y, hy, -, hexchange, -⟩ := (l.client.extends_after m).keeps k x hx
    exact ⟨y, r, hy, by rw [hexchange, hr], ho⟩
  reported k body hmem := by
    rcases hreports k body hmem with hold | hnew
    · exact h.reported k body hold
    · exact hnew

/-- The network completes a call. -/
theorem complete {t : Socket.Task}
    (hm : (∃ body, m = .succeed k body ∧ t = .succeed k body) ∨ m = .fail k ∧ t = .fail k)
    (hnew : ∀ body, t = .succeed k body → ∃ u, (k, u) ∈ l.errands ∧ Fulfilled l.server.world u body) :
    Linked o { l with client := l.client.after m } := by
  obtain ⟨hsockets, -, hreports⟩ := l.client.after_completion k hm
  refine h.move_client m (by rw [hsockets]) fun k' body hmem => ?_
  rcases hreports _ hmem with hold | heq
  · exact Or.inl hold
  · rcases hm with ⟨body', -, rfl⟩ | ⟨-, rfl⟩
    · cases heq
      exact Or.inr (hnew body rfl)
    · cases heq

omit h in
/-- A thread that has ended with success stays so. -/
theorem fulfilled_after {s : Server.History} {body : List UInt8} (h : Fulfilled s.world t body)
    (m : Server.Move) : Fulfilled (s.after m).world t body := by
  obtain ⟨y, hy, hagenda, hthrown, hstatus, hbody⟩ := h
  obtain ⟨z, hz, hagenda', hstays⟩ := s.finished_after hy hagenda m
  exact ⟨z, hz, hagenda', hstays.thrown.trans hthrown, by rw [hstays.answer, hstatus],
    by rw [hstays.answer, hbody]⟩

/-- The server makes a move. -/
theorem move_server (m : Server.Move) (heard : List Nat) :
    Linked o { l with server := l.server.after m, heard } where
  __ := h
  server := h.server.after m
  served k t hkt := by
    obtain ⟨x, r, hx, hr, ho⟩ := h.served k t hkt
    refine ⟨x, r, hx, hr, ?_⟩
    obtain ⟨more, hmore, -⟩ := l.server.origins_after m
    show (l.server.after m).origins[t]? = _
    rw [hmore, List.getElem?_append_left (List.getElem?_eq_some_iff.1 ho).1, ho]
  reported k body hmem := by
    obtain ⟨t, hkt, hdone⟩ := h.reported k body hmem
    exact ⟨t, hkt, fulfilled_after hdone m⟩

/-- The threads of errands exist. -/
theorem thread_lt (hkt : (k, t) ∈ l.errands) : t < l.server.world.threads.length := by
  obtain ⟨x, r, -, -, ho⟩ := h.served k t hkt
  rw [← h.server.aligned]
  exact (List.getElem?_eq_some_iff.1 ho).1

/-- The request of a call reaches the server. -/
theorem request (hx : l.client.world.calls[k]? = some x) (hr : x.exchange.request {} = .ok r)
    (hk : ∀ t, (k, t) ∉ l.errands) :
    Linked o { l with
      server := l.server.after (.request (received r))
      errands := l.errands ++ [(k, l.server.world.threads.length)] } := by
  have hmoved := h.move_server (.request (received r)) l.heard
  refine { hmoved with calls := ?_, threads := ?_, served := ?_, reported := ?_ }
  · rw [List.map_append, List.map_singleton, List.nodup_append]
    refine ⟨h.calls, List.nodup_singleton _, ?_⟩
    rintro k' hk' _ hnew rfl
    obtain ⟨⟨k'', t⟩, hmem, rfl⟩ := List.mem_map.1 hk'
    rw [List.mem_singleton] at hnew
    cases hnew
    exact hk t hmem
  · rw [List.map_append, List.map_singleton, List.nodup_append]
    refine ⟨h.threads, List.nodup_singleton _, ?_⟩
    rintro t ht _ hnew rfl
    obtain ⟨⟨k', t'⟩, hmem, rfl⟩ := List.mem_map.1 ht
    rw [List.mem_singleton] at hnew
    exact (h.thread_lt hmem).ne hnew
  · intro k' t hmem
    rcases List.mem_append.1 hmem with hold | hnew
    · exact hmoved.served k' t hold
    · rw [List.mem_singleton] at hnew
      cases hnew
      refine ⟨x, r, hx, hr, ?_⟩
      show (l.server.origins ++ [some (received r)])[l.server.world.threads.length]? = _
      rw [← h.server.aligned, List.getElem?_concat_length]
  · intro k' body hmem
    obtain ⟨t, hkt, hdone⟩ := hmoved.reported k' body hmem
    exact ⟨t, List.mem_append_left _ hkt, hdone⟩

end Linked

/-- What is reported of a call whose thread has come to its end: its failure if it was refused, or what
the thread has answered with success. -/
theorem report?_cases {w : Server.World} (hy : w.threads[t]? = some y) (h : report? k x y = some m) :
    m = .fail k ∧ y.agenda = [] ∧ isSuccess y.answer.status = false ∨
      ∃ body, m = .succeed k body ∧ Fulfilled w t body := by
  unfold report? at h
  split at h
  · cases h
  next r _ =>
    split at h
    next hended =>
      rw [Bool.and_eq_true, List.isEmpty_iff, Option.isNone_iff_eq_none] at hended
      cases hresult : (Reply.response y.answer.status "" y.answer.body none).result r x.exchange.url with
      | error cause =>
        rw [hresult, Option.some.injEq] at h
        -- with a success the body would have been read
        refine Or.inl ⟨h.symm, hended.1, Bool.eq_false_iff.2 fun hstatus => ?_⟩
        rw [(result_response _ _ _ _ _ _).2 ⟨hstatus, rfl⟩] at hresult
        cases hresult
      | ok body =>
        rw [hresult, Option.some.injEq] at h
        obtain ⟨hstatus, hbody⟩ := (result_response _ _ _ _ _ _).1 hresult
        exact Or.inr ⟨body, h.symm, y, hy, hended.1, hended.2, hstatus, hbody⟩
    next => cases h

/-- Every move keeps the invariant. -/
theorem linked_after {o : Socket.Options} {l : State} (h : Linked o l) (m : Move) :
    Linked o (l.after m) := by
  have hpasses := l.passes_after m
  generalize l.after m = l' at hpasses ⊢
  cases hpasses with
  | idle => exact h
  | @client n hlocal =>
    have hproceeds := l.client.proceeds_after hlocal
    exact h.move_client n hproceeds.size fun k body hmem => Or.inl (hproceeds.subset hmem)
  | server n => exact h.move_server n _
  | request hx hr hfirst => exact h.request hx hr hfirst
  | reply hkt hx hy hn =>
    rcases report?_cases hy hn with ⟨rfl, -⟩ | ⟨body, rfl, hdone⟩
    · exact h.complete (Or.inr ⟨rfl, rfl⟩) fun body heq => by cases heq
    · refine h.complete (Or.inl ⟨body, rfl, rfl⟩) fun body' heq => ?_
      cases heq
      exact ⟨_, hkt, hdone⟩
  | lose k => exact h.complete (Or.inr ⟨rfl, rfl⟩) fun body heq => by cases heq

section Runs

variable (o : Socket.Options) (settings : Server.Settings) (limiter : Option Server.Limiter) (ids : Server.Ids)

theorem linked_start : Linked o (.start o (.new settings limiter ids)) where
  client := ⟨_, rfl⟩
  server := .new settings limiter ids
  single := rfl
  requeue := rfl
  calls := List.nodup_nil
  threads := List.nodup_nil
  served k t hkt := by cases hkt
  reported k body hmem := by cases hmem

theorem run_concat (s : Server.History) (moves : List Move) (m : Move) :
    run o s (moves ++ [m]) = (run o s moves).after m :=
  List.foldl_concat ..

theorem linked_run (moves : List Move) : Linked o (run o (.new settings limiter ids) moves) := by
  induction moves using List.reverseRecOn with
  | nil => exact linked_start o settings limiter ids
  | append_singleton more m ih =>
    rw [run_concat]
    exact linked_after ih m

/-- What a run has at its start and every move keeps, it has in the end. -/
theorem run_induction {motive : List Move → State → Prop}
    (hstart : motive [] (.start o (.new settings limiter ids)))
    (hmove : ∀ {more m l l'}, l = run o (.new settings limiter ids) more → Linked o l → motive more l →
      l.Passes m l' → motive (more ++ [m]) l') (moves : List Move) :
    motive moves (run o (.new settings limiter ids) moves) := by
  induction moves using List.reverseRecOn with
  | nil => exact hstart
  | append_singleton more m ih =>
    rw [run_concat]
    exact hmove rfl (linked_run o settings limiter ids more) ih (State.passes_after _ m)

end Runs

/-! ## Requests of the socket -/

/-- The request is the one of a call of socket `s`. -/
structure Errand (s : Socket) (x : Socket.Call) (r : Server.Request) : Prop where
  plain : Server.asksUpgrade r.header = false
  method : r.method = "POST"
  opens : x.batch = none → r.opens = true
  drains : ∀ batch, x.batch = some batch → ∃ id protocol, s.session = .assigned id ∧
    r.opens = false ∧ r.header.get sessionField = id ∧ r.body = DrainRequest.body ⟨id, protocol, batch⟩

namespace Linked

variable {o : Socket.Options} {l : State}

variable (h : Linked o l)
include h

theorem opens (hx : l.client.world.calls[k]? = some x) (hr : x.exchange.request {} = .ok r)
    (hbatch : x.batch = none) : (received r).opens = true := by
  have hwired := h.sound.wired.calls k x hx
  unfold Socket.Call.Wired at hwired
  rw [hbatch] at hwired
  rw [hwired] at hr
  obtain ⟨-, hget, -, -⟩ := request_ofSession hr
  show ((r.header.get sessionField).isEmpty || r.header.get sessionField == nullSession) = true
  rw [hget]
  decide

/-- The thread of an errand is on its course. -/
theorem course (hkt : (k, t) ∈ l.errands) (hy : l.server.world.threads[t]? = some y) :
    ∃ x r, l.client.world.calls[k]? = some x ∧
      x.exchange.request {} = .ok r ∧ Server.Course l.server.world (some (received r))
        (l.server.toldBy t) (l.server.takesBy t) (l.server.begunBy t) y := by
  obtain ⟨x, r, hx, hr, ho⟩ := h.served k t hkt
  obtain ⟨o', ho', hcourse⟩ := h.server.courses t y hy
  rw [ho, Option.some.injEq] at ho'
  rw [← ho'] at hcourse
  exact ⟨x, r, hx, hr, hcourse⟩

/-- The session of the socket is that of a connection which a request of the socket has opened. -/
theorem session (hid : (l.client.world.socket 0).session = .assigned id) :
    ∃ k t c, (k, t) ∈ l.errands ∧ l.server.begunBy t = [c] ∧ l.server.world.idOf? c = some id := by
  obtain ⟨k, body, x, htaken, hx, -, hbatch, hdecode⟩ := h.sound.wired.assigned 0 id hid
  have hreport : Socket.Task.succeed k body ∈ l.client.reports :=
    List.mem_filter.2 ⟨List.mem_append_left _ htaken, rfl⟩
  obtain ⟨t, hkt, y, hy, hagenda, hthrown, hstatus, hbody⟩ := h.reported k body hreport
  obtain ⟨x', r, hx', hr, hcourse⟩ := h.course hkt hy
  obtain rfl : x' = x := Option.some.inj (hx'.symm.trans hx)
  -- the thread has ended with success, so it has greeted its client
  rcases hcourse.succeeded hagenda hthrown hstatus with ⟨-, c, id', hbegun, hconn, hanswer⟩ | ⟨c, q, -, hadmitted, -⟩
  · refine ⟨k, t, c, hkt, hbegun, ?_⟩
    rw [hconn]
    -- the id that was read is the one that was written, as far as the body was written at all
    rcases hanswer with hfull | hempty
    · rw [hbody, hfull] at hdecode
      rw [session_of_decodeHandshakeResponse hdecode]
    · rw [hbody, hempty] at hdecode
      cases hdecode
  · have hdrains := hadmitted.drains
    rw [h.opens hx hr hbatch] at hdrains
    cases hdrains

/-- The id of the session names it. -/
theorem session_named (hid : (l.client.world.socket 0).session = .assigned id) :
    id ≠ "" ∧ id ≠ nullSession := by
  obtain ⟨-, -, c, -, -, hconn⟩ := h.session hid
  exact h.server.tabled.named c id hconn

section

variable (hx : l.client.world.calls[k]? = some x) (hr : x.exchange.request {} = .ok r)
include hx hr

/-- Requests of calls are errands of the socket. -/
theorem errand : Errand (l.client.world.socket 0) x (received r) := by
  have hwired := h.sound.wired.calls k x hx
  rw [h.owner hx] at hwired
  obtain ⟨url, session, protocol, body, hexchange⟩ : ∃ url session protocol body,
      x.exchange = Exchange.ofSession url session protocol body := by
    unfold Socket.Call.Wired at hwired
    split at hwired
    · exact ⟨_, _, _, _, hwired⟩
    · obtain ⟨id, -, hexchange⟩ := hwired
      exact ⟨_, _, _, _, hexchange⟩
  have hrequest := hr
  rw [hexchange] at hrequest
  obtain ⟨hmethod, -, hplain, -⟩ := request_ofSession hrequest
  refine ⟨hplain, hmethod, h.opens hx hr, fun batch hbatch => ?_⟩
  unfold Socket.Call.Wired at hwired
  rw [hbatch] at hwired
  obtain ⟨id, hid, hexchange⟩ := hwired
  rw [hexchange] at hr
  obtain ⟨-, hget, -, hbody⟩ := request_ofSession hr
  refine ⟨id, _, hid, ?_, hget, hbody⟩
  obtain ⟨hempty, hnull⟩ := h.session_named hid
  show ((r.header.get sessionField).isEmpty || r.header.get sessionField == nullSession) = false
  rw [hget]
  simp [hempty, hnull]

/-- A request that opens a connection carries nothing. -/
theorem batch_eq_none_of_opens (hopens : (received r).opens = true) : x.batch = none := by
  cases hbatch : x.batch with
  | none => rfl
  | some batch =>
    obtain ⟨-, -, -, hdrains, -⟩ := (h.errand hx hr).drains batch hbatch
    cases hopens.symm.trans hdrains

/-- A request of the socket that is admitted to a session is a drain of its own session, and the drain
is the batch of the call. -/
theorem admitted {c : Nat} {q : DrainRequest} (hadmitted : Server.Admitted l.server.world (received r) c q) :
    x.batch = some q.messages ∧ ∃ id, (l.client.world.socket 0).session = .assigned id ∧
      l.server.world.idOf? c = some id := by
  cases hbatch : x.batch with
  | none =>
    have hdrains := hadmitted.drains
    rw [h.opens hx hr hbatch] at hdrains
    cases hdrains
  | some batch =>
    obtain ⟨id, protocol, hid, -, hget, hbody⟩ := (h.errand hx hr).drains batch hbatch
    have hdecode := hadmitted.body
    rw [hbody] at hdecode
    -- what the server reads of the body is what the socket has written
    have hq := (decodeDrainRequest?_body _).symm.trans (decodeDrainRequest?_take hdecode)
    cases hq
    refine ⟨rfl, id, hid, ?_⟩
    rw [hadmitted.session, hget]

end

/-- What the thread of an errand has told the handlers is the first part of the batch of its call, in
the session of the socket. It is all of the batch if the thread has come to its end with success. -/
theorem told (hkt : (k, t) ∈ l.errands) : ∃ x rest, l.client.world.calls[k]? = some x ∧
      x.batch.getD [] = (l.server.toldBy t).map (·.2) ++ rest ∧
      (∀ body, Fulfilled l.server.world t body → rest = []) ∧
      ∀ e ∈ l.server.toldBy t, ∃ id, (l.client.world.socket 0).session = .assigned id ∧
        l.server.world.idOf? e.1 = some id := by
  obtain ⟨y, hget⟩ : ∃ y, l.server.world.threads[t]? = some y :=
    ⟨_, List.getElem?_eq_getElem (h.thread_lt hkt)⟩
  obtain ⟨x, r, hx, hr, hcourse⟩ := h.course hkt hget
  -- only a drain that was told to its end answers with success; all other stages exclude it
  have hended : ∀ {body}, Fulfilled l.server.world t body →
      y.agenda = [] ∧ y.thrown = none ∧ isSuccess y.answer.status = true := by
    rintro body ⟨z, hz, hagenda, hthrown, hstatus, -⟩
    cases hget.symm.trans hz
    exact ⟨hagenda, hthrown, hstatus⟩
  refine ⟨x, ?_⟩
  generalize l.server.begunBy t = begun at hcourse
  generalize l.server.takesBy t = takes at hcourse
  generalize l.server.toldBy t = told at hcourse ⊢
  cases hcourse with
  | unserved hagenda =>
    refine ⟨_, hx, rfl, fun body hdone => ?_, by simp⟩
    rw [(hended hdone).1] at hagenda
    cases hagenda
  | refused _ hstatus =>
    refine ⟨_, hx, rfl, fun body hdone => ?_, by simp⟩
    rw [(hended hdone).2.2] at hstatus
    cases hstatus
  | greeting _ _ _ hagenda =>
    refine ⟨_, hx, rfl, fun body hdone => ?_, by simp⟩
    rw [(hended hdone).1] at hagenda
    exact absurd hagenda.symm (by simp)
  | greeted hopens =>
    refine ⟨_, hx, rfl, fun _ _ => ?_, by simp⟩
    rw [h.batch_eq_none_of_opens hx hr hopens]
  | @draining _ _ c n q front rest taken hadmitted hmessages _ hdrain =>
    obtain ⟨hbatch, id, hid, hconn⟩ := h.admitted hx hr hadmitted
    refine ⟨rest, hx, by simp [hbatch, hmessages], fun body hdone => ?_, ?_⟩
    · have hagenda := (hended hdone).1
      generalize y.agenda = agenda at hagenda hdrain
      generalize y.answer = answer at hdrain
      cases hdrain with
      | done => rfl
      | delivering _ _ => exact absurd hagenda (by simp)
      | _ => cases hagenda
    · simp only [List.mem_map]
      rintro _ ⟨m, -, rfl⟩
      exact ⟨id, hid, hconn⟩
  | @interrupted _ _ c q front rest hadmitted hmessages _ hthrown =>
    obtain ⟨hbatch, id, hid, hconn⟩ := h.admitted hx hr hadmitted
    refine ⟨rest, hx, by simp [hbatch, hmessages], fun body hdone => ?_, ?_⟩
    · rw [(hended hdone).2.1] at hthrown
      cases hthrown
    · simp only [List.mem_map]
      rintro _ ⟨m, -, rfl⟩
      exact ⟨id, hid, hconn⟩

end Linked

end PollSocket.Link
