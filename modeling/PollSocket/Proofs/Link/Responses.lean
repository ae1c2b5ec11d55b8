import PollSocket.Proofs.Link.Faultless
import PollSocket.Proofs.Socket.Dispatch

set_option autoImplicit false

/-!
# What responses bring

Messages from the server to the socket, by the connections that have accepted them and their positions
there. What a thread takes leaves the connection for good, so what is taken for a call whose response
never arrives is lost. What arrives comes in order nevertheless: a call is followed by another one only
when it is completed, and if it has succeeded, its thread has come to its end before that.
`InTurn` is the invariant, and `State.delivered` are the positions of what the responses have brought.
-/

namespace PollSocket.Link

variable {messages : List String} {body : List UInt8} {c k t : Nat} {x : Socket.Call} {o : Socket.Options}
  {l : State}

namespace State

/-- Connections and positions of the messages that were taken for a call. -/
def fetched (l : State) (call : Nat) : List (Nat × Nat) :=
  (l.thread? call).elim [] fun t =>
    (l.server.takesBy t).flatMap fun e => (l.server.positions t e.1).map (Prod.mk e.1)

/-- The success of a drain has been reported, and its response could be read. -/
def brings (l : State) (call : Nat) : Bool :=
  (l.client.answer? call).any fun body => (decodeDrainResponse body).isOk

/-- Connections and positions of the messages that responses have brought, in the order of the calls. -/
def delivered (l : State) : List (Nat × Nat) :=
  ((l.client.world.callsOf 0).filter l.brings).flatMap l.fetched

/-- The message at a position. -/
def accepted? (l : State) (e : Nat × Nat) : Option String := (l.server.acceptedBy e.1)[e.2]?

end State

/-! ## What a response brings -/

namespace Linked

variable (h : Linked o l)
include h

/-- The answer to a drain was written by its thread, which has come to its end. -/
theorem answered (hanswer : l.client.answer? k = some body) :
    ∃ t x batch, Socket.Task.succeed k body ∈ l.client.reports ∧ (k, t) ∈ l.errands ∧
      Fulfilled l.server.world t body ∧ l.client.world.calls[k]? = some x ∧ x.batch = some batch := by
  rw [Socket.History.answer?] at hanswer
  split at hanswer
  next hbatch =>
    obtain ⟨batch, hbatch⟩ := Option.isSome_iff_exists.1 hbatch
    obtain ⟨x, hx, hbatch⟩ := Option.bind_eq_some_iff.1 hbatch
    obtain ⟨task, htask, hbody⟩ := List.exists_of_findSome?_eq_some hanswer
    have hsucceed : task = .succeed k body := by
      cases task with
      | succeed c body' =>
        rw [Socket.Task.answerTo?] at hbody
        split at hbody
        next hc =>
          cases hbody
          rw [hc]
        next => cases hbody
      | _ => cases hbody
    subst hsucceed
    have hreport : Socket.Task.succeed k body ∈ l.client.reports :=
      List.mem_filter.2 ⟨List.mem_append_left _ htask, rfl⟩
    obtain ⟨t, hkt, hdone⟩ := h.reported k body hreport
    exact ⟨t, x, batch, hreport, hkt, hdone, hx, hbatch⟩
  next => cases hanswer

/-- A response that can be read brings what its thread has taken, from a connection with the id of the
session. -/
theorem takes_of_answer {batch : List String} (hkt : (k, t) ∈ l.errands)
    (hdone : Fulfilled l.server.world t body) (hx : l.client.world.calls[k]? = some x)
    (hbatch : x.batch = some batch) (hread : decodeDrainResponse body = .ok messages) :
    ∃ c id, l.server.takesBy t = [(c, messages)] ∧ (l.client.world.socket 0).session = .assigned id ∧
      l.server.world.idOf? c = some id := by
  obtain ⟨y, hy, hagenda, hthrown, hstatus, hbody⟩ := hdone
  obtain ⟨x', r, hx', hr, hcourse⟩ := h.course hkt hy
  cases hx'.symm.trans hx
  obtain ⟨-, -, -, hdrains, -⟩ := (h.errand hx hr).drains batch hbatch
  rcases hcourse.succeeded hagenda hthrown hstatus with ⟨hopens, -⟩ | ⟨c, q, result, hadmitted, htakes, -, hwrote⟩
  · cases hdrains.symm.trans hopens
  · obtain ⟨-, id, hid, hconn⟩ := h.admitted hx hr hadmitted
    refine ⟨c, id, ?_, hid, hconn⟩
    -- an empty body cannot be read
    have hwritten : y.answer.body ≠ [] := by
      intro hempty
      rw [hbody, hempty] at hread
      cases hread
    cases result with
    | none => exact absurd hwrote hwritten
    | some written =>
      have hfull : y.answer.body = drainResponseBody written :=
        hwrote.resolve_right fun hlost => hwritten hlost.2
      rw [hbody, hfull] at hread
      rw [htakes, messages_of_decodeDrainResponse hread]
      rfl

/-- What was taken for a call from the only connection that its thread took from. -/
theorem fetched_eq (hkt : (k, t) ∈ l.errands) (htakes : l.server.takesBy t = [(c, messages)]) :
    l.fetched k = (l.server.positions t c).map (Prod.mk c) := by
  rw [State.fetched, h.thread?_eq hkt, Option.elim_some, htakes, List.flatMap_singleton]

/-- Positions that a response has brought stand for its messages. -/
theorem map_fetched (hanswer : l.client.answer? k = some body)
    (hread : decodeDrainResponse body = .ok messages) :
    (l.fetched k).map l.accepted? = messages.map some := by
  obtain ⟨t, x, batch, -, hkt, hdone, hx, hbatch⟩ := h.answered hanswer
  obtain ⟨c, id, htakes, -⟩ := h.takes_of_answer hkt hdone hx hbatch hread
  have htexts := h.server.conserved.map_positions t c
  rw [htakes, Server.entriesOf_singleton, if_pos rfl, List.flatten_singleton] at htexts
  rw [h.fetched_eq hkt htakes, List.map_map]
  exact htexts

/-- Messages of the answers, by calls. -/
theorem map_delivered :
    l.delivered.map l.accepted? = ((l.client.answers 0).flatMap Socket.messagesOf).map some := by
  rw [State.delivered, Socket.History.answers]
  induction l.client.world.callsOf 0 with
  | nil => rfl
  | cons k more ih =>
    cases hanswer : l.client.answer? k with
    | none =>
      have hbrings : ¬ l.brings k = true := by simp [State.brings, hanswer]
      rw [List.filter_cons_of_neg hbrings, List.filterMap_cons_none hanswer, ih]
    | some body =>
      rw [List.filterMap_cons_some hanswer, List.flatMap_cons, List.map_append]
      cases hread : decodeDrainResponse body with
      | error reason =>
        have hbrings : ¬ l.brings k = true := by simp [State.brings, hanswer, hread, Except.toBool]
        rw [List.filter_cons_of_neg hbrings, ih, Socket.messagesOf, hread]
        rfl
      | ok messages =>
        have hbrings : l.brings k = true := by simp [State.brings, hanswer, hread, Except.toBool]
        rw [List.filter_cons_of_pos hbrings, List.flatMap_cons, List.map_append, ih,
          h.map_fetched hanswer hread, Socket.messagesOf, hread]
        rfl

/-- What a response has brought was taken by its thread in the session of the socket. -/
theorem fetched_of_brings (hbrings : l.brings k = true) :
    ∃ t c id body, (k, t) ∈ l.errands ∧ Socket.Task.succeed k body ∈ l.client.reports ∧
      l.fetched k = (l.server.positions t c).map (Prod.mk c) ∧
      (l.client.world.socket 0).session = .assigned id ∧ l.server.world.idOf? c = some id := by
  obtain ⟨body, hanswer, hok⟩ := (Option.any_eq_true _ _).1 hbrings
  obtain ⟨t, x, batch, hreport, hkt, hdone, hx, hbatch⟩ := h.answered hanswer
  cases hread : decodeDrainResponse body with
  | error reason =>
    rw [hread] at hok
    cases hok
  | ok messages =>
    obtain ⟨c, id, htakes, hid, hconn⟩ := h.takes_of_answer hkt hdone hx hbatch hread
    exact ⟨t, c, id, body, hkt, hreport, h.fetched_eq hkt htakes, hid, hconn⟩

theorem session_of_delivered {e : Nat × Nat} (he : e ∈ l.delivered) :
    ∃ id, (l.client.world.socket 0).session = .assigned id ∧ l.server.world.idOf? e.1 = some id := by
  obtain ⟨k, hk, hfetched⟩ := List.mem_flatMap.1 he
  obtain ⟨t, c, id, body, -, -, heq, hid, hconn⟩ := h.fetched_of_brings (List.mem_filter.1 hk).2
  rw [heq] at hfetched
  obtain ⟨i, -, rfl⟩ := List.mem_map.1 hfetched
  exact ⟨id, hid, hconn⟩

end Linked

/-! ## Threads take in turn -/

/-- Thread `u`, which takes after thread `t`, serves no older call, if its success has been reported. -/
def State.Follows (l : State) (t u : Nat) : Prop :=
  ∀ a b body, (a, t) ∈ l.errands → (b, u) ∈ l.errands → Socket.Task.succeed b body ∈ l.client.reports →
    a ≤ b

/-- Threads take in the order of their calls, as far as calls have succeeded. -/
def InTurn (l : State) : Prop := (l.server.takes.map (·.1)).Pairwise l.Follows

namespace Linked

theorem mem_callsOf (h : Linked o l) (hkt : (k, t) ∈ l.errands) : k ∈ l.client.world.callsOf 0 := by
  obtain ⟨x, -, hx, -⟩ := h.served k t hkt
  exact Socket.World.mem_callsOf.2 ⟨x, hx, h.owner hx⟩

/-- A call that is outstanding is the last one. -/
theorem le_of_outstanding (h : Linked o l) {a : Nat} (hx : l.client.world.calls[k]? = some x)
    (hopen : Socket.completed l.client.taken k = false) (hat : (a, t) ∈ l.errands) : a ≤ k := by
  obtain ⟨older, hof, holder⟩ := h.sound.flights.callsOf_of_flying hx hopen
  have ha := h.mem_callsOf hat
  rw [← h.owner hx, hof, List.mem_append, List.mem_singleton] at ha
  rcases ha with ha | rfl
  · exact (holder a ha).1.le
  · exact le_rfl

/-- A call that nobody has answered is the last one. -/
theorem le_of_awaits (h : Linked o l) {a : Nat} (hk : l.client.world.awaits k = true)
    (hat : (a, t) ∈ l.errands) : a ≤ k := by
  unfold Socket.World.awaits at hk
  split at hk
  next x hx =>
    refine h.le_of_outstanding hx ?_ hat
    rw [Bool.eq_false_iff, ne_eq, Socket.completed_iff]
    intro hdone
    apply h.sound.flights.not_answered hx (by simpa using hk)
    rw [List.filterMap_append]
    exact List.mem_append_left _ hdone
  next => cases hk

end Linked

namespace InTurn

/-- The socket goes on: a success that is reported anew is the one of the last call. -/
theorem move_client (hl : Linked o l) (h : InTurn l) {k : Socket.History}
    (hreports : ∀ b body, Socket.Task.succeed b body ∈ k.reports →
      Socket.Task.succeed b body ∈ l.client.reports ∨ l.client.world.awaits b = true) :
    InTurn { l with client := k } := by
  refine List.Pairwise.imp (fun {t u} hfollows => ?_) h
  intro a b body hat hbu hreport
  rcases hreports b body hreport with hold | hawaits
  · exact hfollows a b body hat hbu hold
  · exact hl.le_of_awaits hawaits hat

/-- The server goes on: a thread whose success has been reported takes nothing any more. -/
theorem move_server (hl : Linked o l) (h : InTurn l) (m : Server.Move) : InTurn (l.afterServer m) := by
  show ((l.server.after m).takes.map (·.1)).Pairwise l.Follows
  cases l.server.enters_after m with
  | nothing _ htakes | tell _ _ htakes | begins _ htakes =>
    rw [htakes]
    exact h
  | @take t c messages x d rest hx _ _ htakes =>
    rw [htakes, List.map_append, List.pairwise_append]
    refine ⟨h, List.pairwise_singleton _ _, ?_⟩
    intro u _ t' ht' a b body _ hbt hreport
    rw [List.map_singleton, List.mem_singleton] at ht'
    rw [ht'] at hbt
    -- its thread has come to its end
    obtain ⟨v, hbv, y, hy, hended, -⟩ := hl.reported b body hreport
    obtain rfl : v = t := congrArg Prod.snd (List.inj_on_of_nodup_map hl.calls hbv hbt rfl)
    cases hy.symm.trans hx.thread
    cases hended.symm.trans hx.agenda

/-- The request of a call reaches the server. -/
theorem request (hl : Linked o l) (h : InTurn l) (k : Nat) (r : Server.Request) :
    InTurn { l with
      server := l.server.after (.request r)
      errands := l.errands ++ [(k, l.server.world.threads.length)] } := by
  -- the new thread has taken nothing
  have hold : ∀ {a t : Nat}, t ∈ l.server.takes.map (·.1) →
      (a, t) ∈ l.errands ++ [(k, l.server.world.threads.length)] → (a, t) ∈ l.errands := by
    intro a t ht hmem
    refine (List.mem_append.1 hmem).resolve_right fun hnew => ?_
    rw [List.mem_singleton, Prod.mk.injEq] at hnew
    obtain ⟨⟨t', c, messages⟩, htake, rfl⟩ := List.mem_map.1 ht
    have hentry : (c, messages) ∈ l.server.takesBy t' := Server.mem_entriesOf.2 htake
    rw [(hl.server.unborn t' hnew.2.ge).2.1] at hentry
    cases hentry
  refine List.Pairwise.imp_of_mem ?_ h
  intro t u ht hu hfollows a b body hat hbu hreport
  exact hfollows a b body (hold ht hat) (hold hu hbu) hreport

end InTurn

/-- Of two calls whose responses have arrived, what was taken for the older one stands before what was
taken for the other one. -/
theorem InTurn.positions_lt (hl : Linked o l) (h : InTurn l) {j u : Nat} (hkt : (k, t) ∈ l.errands)
    (hju : (j, u) ∈ l.errands) (hkj : k < j) (hreport : Socket.Task.succeed k body ∈ l.client.reports)
    {p q : Nat} (hp : p ∈ l.server.positions t c) (hq : q ∈ l.server.positions u c) : p < q := by
  obtain ⟨m, hm⟩ := Server.Books.mem_positions.1 hp
  obtain ⟨n, hn⟩ := Server.Books.mem_positions.1 hq
  -- threads follow one another message by message
  have hfollow : (l.server.takenFrom c).Pairwise fun e e' => l.Follows e.1 e'.1 := by
    refine List.pairwise_flatMap.2 ⟨fun e _ => ?_, ?_⟩
    · split
      · refine List.pairwise_map.2 (List.pairwise_of_forall fun _ _ => ?_)
        intro a b _ hae hbe _
        exact (congrArg Prod.fst (List.inj_on_of_nodup_map hl.threads hae hbe rfl)).le
      · exact List.Pairwise.nil
    · refine (List.pairwise_map.1 h).imp fun {e e'} hfollows x hx y hy => ?_
      split at hx
      · split at hy
        · obtain ⟨-, -, rfl⟩ := List.mem_map.1 hx
          obtain ⟨-, -, rfl⟩ := List.mem_map.1 hy
          exact hfollows
        · cases hy
      · cases hx
  obtain ⟨hpl, hpe⟩ := List.getElem?_eq_some_iff.1 hm
  obtain ⟨hql, hqe⟩ := List.getElem?_eq_some_iff.1 hn
  by_contra hnot
  rcases Nat.lt_or_eq_of_le (Nat.le_of_not_lt hnot) with hlt | rfl
  · have hfollows := List.pairwise_iff_getElem.1 hfollow q p hql hpl hlt
    rw [hpe, hqe] at hfollows
    exact absurd hkj (Nat.not_lt.2 (hfollows j k body hju hkt hreport))
  · rw [hpe, Prod.mk.injEq] at hqe
    obtain rfl := hqe.1
    exact hkj.ne (congrArg Prod.fst (List.inj_on_of_nodup_map hl.threads hkt hju rfl))

theorem inTurn_run (o : Socket.Options) (settings : Server.Settings) (limiter : Option Server.Limiter)
    (ids : Server.Ids) (moves : List Move) : InTurn (run o (.new settings limiter ids) moves) := by
  refine run_induction (motive := fun _ l => InTurn l) o settings limiter ids List.Pairwise.nil
    (fun {_ _ l _} _ hl ih hpasses => ?_) moves
  -- a completion is accepted of a call that nobody has answered
  have hcompletes : ∀ {k : Nat} {t : Socket.Task} {n : Socket.Move},
      ((∃ body, n = .succeed k body ∧ t = .succeed k body) ∨ n = .fail k ∧ t = .fail k) →
      InTurn { l with client := l.client.after n } := by
    intro k t n hn
    by_cases hawaits : l.client.world.awaits k = true
    · refine ih.move_client hl fun b body hreport => ?_
      refine ((l.client.after_completion k hn).2.2 _ hreport).imp_right fun heq => ?_
      rcases hn with ⟨body', -, rfl⟩ | ⟨-, rfl⟩
      · cases heq
        exact hawaits
      · cases heq
    · have hsame : l.client.after n = l.client := by
        rcases hn with ⟨body, rfl, -⟩ | ⟨rfl, -⟩ <;> exact if_neg hawaits
      rw [hsame]
      exact ih
  cases hpasses with
  | idle => exact ih
  | @client n hlocal =>
    exact ih.move_client hl fun b body hreport => Or.inl ((l.client.proceeds_after hlocal).subset hreport)
  | server n => exact ih.move_server hl n
  | request => exact ih.request hl _ _
  | reply hkt hx hy hn =>
    rcases report?_cases hy hn with ⟨rfl, -⟩ | ⟨body, rfl, -⟩
    · exact hcompletes (Or.inr ⟨rfl, rfl⟩)
    · exact hcompletes (Or.inl ⟨body, rfl, rfl⟩)
  | lose k => exact hcompletes (Or.inr ⟨rfl, rfl⟩)

/-- What responses have brought from a connection comes in the order in which the connection has accepted
it, and nothing comes twice. -/
theorem delivered_sorted (hl : Linked o l) (h : InTurn l) :
    l.delivered.Pairwise fun e e' => e.1 = e'.1 → e.2 < e'.2 := by
  refine List.pairwise_flatMap.2 ⟨fun k hk => ?_, ?_⟩
  · -- within a response
    obtain ⟨t, c, id, body, -, -, heq, -⟩ := hl.fetched_of_brings (List.mem_filter.1 hk).2
    rw [heq, List.pairwise_map]
    refine (l.server.positions_sorted t c).imp ?_
    intro p q hlt _
    exact hlt
  · -- from one response to another
    have hsorted := (l.client.world.callsOf_sorted 0).filter l.brings
    refine List.Pairwise.imp_of_mem ?_ hsorted
    intro k j hk hj hkj e he e' he' hsame
    obtain ⟨t, c, -, body, hkt, hreport, heq, -⟩ := hl.fetched_of_brings (List.mem_filter.1 hk).2
    obtain ⟨u, d, -, -, hju, -, heq', -⟩ := hl.fetched_of_brings (List.mem_filter.1 hj).2
    rw [heq] at he
    rw [heq'] at he'
    obtain ⟨p, hp, rfl⟩ := List.mem_map.1 he
    obtain ⟨q, hq, rfl⟩ := List.mem_map.1 he'
    obtain rfl : c = d := hsame
    exact h.positions_lt hl hkt hju hkj hreport hp hq

/-- Messages at increasing positions of a list are a part of it, in its order. -/
theorem sublist_of_positions {α : Type} {whole part : List α} {positions : List Nat}
    (hsorted : positions.Pairwise (· < ·))
    (hpart : positions.map (fun i => whole[i]?) = part.map some) : part.Sublist whole := by
  have hlt : ∀ i ∈ positions, i < whole.length := by
    intro i hi
    have hmem : whole[i]? ∈ part.map some := by
      rw [← hpart]
      exact List.mem_map_of_mem hi
    obtain ⟨a, -, ha⟩ := List.mem_map.1 hmem
    exact (List.getElem?_eq_some_iff.1 ha.symm).1
  have heq : part = (positions.pmap (fun i hi => (⟨i, hi⟩ : Fin whole.length)) hlt).map (whole[·]) := by
    apply List.map_injective_iff.2 (Option.some_injective α)
    rw [← hpart, List.map_map, List.map_pmap, ← List.pmap_eq_map (fun _ _ => trivial)]
    refine List.pmap_congr_left _ fun i _ hi _ => ?_
    exact List.getElem?_eq_getElem _
  rw [heq]
  apply List.map_getElem_sublist
  exact hsorted.pmap hlt fun i _ j _ hij => hij

/-- If ids do not repeat, what the answers have brought is a part of what the connection of the session has
accepted, in its order. -/
theorem answers_sublist (hl : Linked o l) (h : InTurn l) (hdistinct : l.server.world.Distinct) {id : String}
    (hid : (l.client.world.socket 0).session = .assigned id) (hc : l.server.world.idOf? c = some id) :
    ((l.client.answers 0).flatMap Socket.messagesOf).Sublist (l.server.acceptedBy c) := by
  have hsame : ∀ e ∈ l.delivered, e.1 = c := by
    intro e he
    obtain ⟨id', hid', he'⟩ := hl.session_of_delivered he
    rw [hid, SessionId.assigned.injEq] at hid'
    exact Server.World.distinct_iff.1 hdistinct e.1 c id (hid' ▸ he') hc
  have hpositions : (l.delivered.map (·.2)).Pairwise (· < ·) := by
    rw [List.pairwise_map]
    refine List.Pairwise.imp_of_mem ?_ (delivered_sorted hl h)
    intro e e' he he' hlt
    exact hlt ((hsame e he).trans (hsame e' he').symm)
  refine sublist_of_positions hpositions ?_
  rw [← hl.map_delivered, List.map_map]
  refine List.map_congr_left fun e he => ?_
  rw [State.accepted?, hsame e he]
  rfl

end PollSocket.Link
