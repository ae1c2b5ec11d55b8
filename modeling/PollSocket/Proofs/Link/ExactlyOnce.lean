import PollSocket.Proofs.Link.Faultless

set_option autoImplicit false

/-!
# Delivery without faults

Along runs that are faultless and lose nothing, drains are never refused, so they never fail, and the
threads that serve them tell and take in the one connection that the socket has opened. `Orderly` is the
invariant. It follows the messages in both directions: what the handlers of the server were told and
what is left of the outstanding batch are the batches of all calls, and what was taken for the socket is
what its responses have brought and what is on its way. So every message is delivered exactly once and
in order, both ways (`exactly_once`).
-/

namespace PollSocket.Link

variable {c k t : Nat} {l' : State}

/-- The call is a handshake whose thread has come to its end. -/
def State.Greeted (l : State) (k : Nat) : Prop :=
  ∃ x t y, l.client.world.calls[k]? = some x ∧ x.batch = none ∧ (k, t) ∈ l.errands ∧
    l.server.world.threads[t]? = some y ∧ y.agenda = []

/-- What holds of a socket and a server as long as nothing is wrong and nothing is lost. -/
structure Orderly (l : State) : Prop where
  /-- Threads that serve the socket drain connections that it has opened. -/
  drains : ∀ k t y, (k, t) ∈ l.errands → l.server.world.threads[t]? = some y →
    ∀ d ∈ y.agenda, ∀ c, d.session? = some c → c ∈ l.conns
  told : ∀ k t, (k, t) ∈ l.errands → ∀ e ∈ l.server.toldBy t, e.1 ∈ l.conns
  takes : ∀ k t, (k, t) ∈ l.errands → ∀ e ∈ l.server.takesBy t, e.1 ∈ l.conns
  /-- Drains are not refused. -/
  admits : ∀ k t x y, (k, t) ∈ l.errands → l.client.world.calls[k]? = some x → x.batch ≠ none →
    l.server.world.threads[t]? = some y → isSuccess y.answer.status = true
  /-- So the handshake alone can fail. -/
  fails : ∀ k, Socket.Task.fail k ∈ l.client.reports → l.Greeted k
  heard : l.seen.map (·.2) ++ l.unheard = (l.client.world.callsOf 0).flatMap l.client.world.batch
  brought : (l.took.map (·.2)).flatten =
    l.client.taken.flatMap (Socket.Task.messages l.client.world 0) ++ l.transit

namespace Orderly

variable {o : Socket.Options} {l : State}

/-- When the success of a call is reported, its batch was told. -/
theorem told_of_succeed (hl : Linked o l) {body : List UInt8}
    (hmem : Socket.Task.succeed k body ∈ l.client.reports) :
    (l.client.world.batch k).drop (l.toldOf k).length = [] := by
  obtain ⟨t, hkt, hdone⟩ := hl.reported k body hmem
  obtain ⟨x, rest, hx, hbatch, hall, -⟩ := hl.told hkt
  rw [hall body hdone] at hbatch
  rw [hl.toldOf_eq hkt, Socket.World.batch, hx, Option.bind_some, hbatch]
  exact List.drop_of_length_le (by simp)

/-- When the completion of a call is reported, its batch was told and its response brings what was
taken. -/
theorem settled (h : Orderly l) (hl : Linked o l) (hf : Faultless l) {task : Socket.Task}
    (hmem : task ∈ l.client.reports) (hk : task.once? = some (.complete k)) :
    (l.client.world.batch k).drop (l.toldOf k).length = [] ∧
      task.messages l.client.world 0 = ((l.takenOf k).map (·.2)).flatten := by
  cases task with
  | succeed c body =>
    cases hk
    obtain ⟨t, hkt, hdone⟩ := hl.reported k body hmem
    rw [hl.takenOf_eq hkt]
    exact ⟨told_of_succeed hl hmem, hl.brings hf hkt hdone⟩
  | fail c =>
    cases hk
    obtain ⟨x, t, y, hx, hnone, hkt, -⟩ := h.fails k hmem
    refine ⟨?_, ?_⟩
    · rw [Socket.World.batch, hx, Option.bind_some, hnone]
      exact List.drop_nil
    · rw [hl.takenOf_eq hkt, hl.takes_of_handshake hkt hx hnone]
      rfl
  | _ => cases hk

/-- The call of a thread that has not come to its end is outstanding, if failures are reported only of
calls whose threads have. -/
theorem active_of_fails (hl : Linked o l) (hfails : ∀ k, Socket.Task.fail k ∈ l.client.taken →
      ∃ u z, (k, u) ∈ l.errands ∧ l.server.world.threads[u]? = some z ∧ z.agenda = [])
    (hkt : (k, t) ∈ l.errands) {y : Server.Thread} (hy : l.server.world.threads[t]? = some y) (hbusy : y.agenda ≠ []) :
    Socket.completed l.client.taken k = false := by
  rw [Bool.eq_false_iff]
  intro hdone
  -- a completion is reported of a thread that has come to its end
  have hended : ∀ {u : Nat} {z : Server.Thread}, (k, u) ∈ l.errands →
      l.server.world.threads[u]? = some z → z.agenda ≠ [] := by
    intro u z hku hz
    cases (hl.thread?_eq hkt).symm.trans (hl.thread?_eq hku)
    cases hy.symm.trans hz
    exact hbusy
  obtain ⟨task, htask, honce⟩ := List.mem_filterMap.1 (Socket.completed_iff.1 hdone)
  cases task with
  | succeed c body =>
    cases honce
    obtain ⟨u, hku, z, hz, hnil, -⟩ :=
      hl.reported k body (List.mem_filter.2 ⟨List.mem_append_left _ htask, rfl⟩)
    exact hended hku hz hnil
  | fail c =>
    cases honce
    obtain ⟨u, z, hku, hz, hnil⟩ := hfails k htask
    exact hended hku hz hnil
  | _ => cases honce

theorem active (h : Orderly l) (hl : Linked o l) (hkt : (k, t) ∈ l.errands) {y : Server.Thread}
    (hy : l.server.world.threads[t]? = some y) (hbusy : y.agenda ≠ []) :
    Socket.completed l.client.taken k = false := by
  refine active_of_fails hl (fun c hc => ?_) hkt hy hbusy
  obtain ⟨-, u, z, -, -, hcu, hz, hnil⟩ :=
    h.fails c (List.mem_filter.2 ⟨List.mem_append_left _ hc, rfl⟩)
  exact ⟨u, z, hcu, hz, hnil⟩

/-! ## Moves of the socket -/

/-- A call that is issued now is outstanding, and nobody serves it. -/
theorem issued (hl : Linked o l) (m : Socket.Move)
    (heq : l' = { l with client := l.client.after m })
    (hold : l.client.world.calls.length ≤ c) (hnew : c ∈ l'.client.world.callsOf 0) :
    l'.unheardOf c = l'.client.world.batch c ∧ l'.transitOf c = [] := by
  have hopen : Socket.completed l'.client.taken c = false := by
    subst heq
    obtain ⟨x, hx, -⟩ := Socket.World.mem_callsOf.1 hnew
    exact Socket.History.not_completed_after hl.sound m hold (List.getElem?_eq_some_iff.1 hx).1
  -- requests are made of calls that exist
  have hunserved : ∀ t, (c, t) ∉ l'.errands := by
    subst heq
    exact fun t hct => Nat.not_lt_of_le hold (hl.call_lt hct)
  rw [State.unheardOf, State.transitOf, State.toldOf, State.takenOf,
    Linked.entriesFor_eq_nil hunserved, Linked.entriesFor_eq_nil hunserved, hopen]
  exact ⟨rfl, rfl⟩

/-- What was heard and is still to be heard are the batches of all calls, if of a call that is completed
now nothing was left to tell. -/
theorem heard_client (hl : Linked o l)
    (hheard : l.seen.map (·.2) ++ l.unheard = (l.client.world.callsOf 0).flatMap l.client.world.batch)
    (m : Socket.Move) (hsettled : ∀ task k, task ∈ l.client.reports → task.once? = some (.complete k) →
      (l.client.after m).taken = l.client.taken ++ [task] →
      (l.client.world.batch k).drop (l.toldOf k).length = []) (heq : l' = { l with client := l.client.after m }) :
    l'.seen.map (·.2) ++ l'.unheard =
      (l'.client.world.callsOf 0).flatMap l'.client.world.batch := by
  have hkeeps := (l.client.extends_after m).keeps
  obtain ⟨more, hcalls, hnew⟩ := hkeeps.callsOf_append 0
  have hbatch : ∀ c ∈ l.client.world.callsOf 0,
      (l.client.after m).world.batch c = l.client.world.batch c := by
    intro c hc
    obtain ⟨x, hx, -⟩ := Socket.World.mem_callsOf.1 hc
    exact hkeeps.batch_eq (List.getElem?_eq_some_iff.1 hx).1
  -- a completion changes what is outstanding, but its batch was told to the end by then
  have hold : (l.client.world.callsOf 0).flatMap l'.unheardOf = l.unheard := by
    subst heq
    refine List.flatMap_congr fun c hc => ?_
    show (if Socket.completed (l.client.after m).taken c then [] else
      ((l.client.after m).world.batch c).drop (l.toldOf c).length) = l.unheardOf c
    rw [hbatch c hc, State.unheardOf]
    rcases Socket.History.taken_cases hl.sound m with ⟨hsame, -⟩ |
      ⟨task, k, hmem, hk, hopen, htaken, hdone⟩
    · rw [hsame]
    · by_cases hck : c = k
      · subst hck
        rw [hsettled task c hmem hk htaken, ite_self, ite_self]
      · refine if_congr ?_ rfl rfl
        rw [hdone, or_iff_left hck]
  have hadded : more.flatMap l'.unheardOf = more.flatMap l'.client.world.batch := by
    refine List.flatMap_congr fun c hc => (issued hl m heq (hnew c hc) ?_).1
    rw [heq]
    exact hcalls ▸ List.mem_append_right _ hc
  subst heq
  show l.seen.map (·.2) ++ ((l.client.after m).world.callsOf 0).flatMap _ =
    ((l.client.after m).world.callsOf 0).flatMap _
  rw [hcalls, List.flatMap_append, List.flatMap_append, hold, hadded, List.flatMap_congr hbatch,
    ← hheard, List.append_assoc]

/-- What was on its way is brought by the response that arrives. -/
theorem brought_client (h : Orderly l) (hl : Linked o l) (hf : Faultless l) (m : Socket.Move)
    (heq : l' = { l with client := l.client.after m }) :
    (l'.took.map (·.2)).flatten =
      l'.client.taken.flatMap (Socket.Task.messages l'.client.world 0) ++ l'.transit := by
  obtain ⟨more, hcalls, hnew⟩ := (l.client.extends_after m).keeps.callsOf_append 0
  have hadded : more.flatMap l'.transitOf = [] := by
    refine List.flatMap_eq_nil_iff.2 fun c hc => (issued hl m heq (hnew c hc) ?_).2
    rw [heq]
    exact hcalls ▸ List.mem_append_right _ hc
  subst heq
  show (l.took.map (·.2)).flatten =
    (l.client.after m).taken.flatMap (Socket.Task.messages (l.client.after m).world 0) ++
      ((l.client.after m).world.callsOf 0).flatMap _
  rw [Socket.History.messages_after hl.sound, hcalls, List.flatMap_append, hadded, List.append_nil]
  rcases Socket.History.taken_cases hl.sound m with ⟨hsame, hnothing⟩ |
    ⟨task, k, hmem, hk, hopen, htaken, hdone⟩
  · rw [hnothing, h.brought]
    refine congrArg _ (List.flatMap_congr fun c _ => ?_)
    exact if_congr (by rw [← hsame]) rfl rfl
  · obtain ⟨x, hx, -⟩ := hl.sound.flights.answered k
      (List.mem_filterMap.2 ⟨task, List.mem_of_mem_filter hmem, hk⟩)
    -- the completed call was the outstanding one, so nothing is on its way any more
    have hlast := hl.flatMap_outstanding hx hopen
      (f := ({ l with client := l.client.after m } : State).transitOf)
      fun c hc => if_pos ((hdone c).2 (Or.inl hc))
    have hnone := hlast.trans (if_pos ((hdone k).2 (Or.inr rfl)))
    rw [hnone, htaken, List.flatMap_append, List.flatMap_singleton, (h.settled hl hf hmem hk).2,
      h.brought, hl.transit_eq hx hopen, List.append_nil]

/-- The socket goes on. -/
theorem move_client (h : Orderly l) (hl : Linked o l) (hf : Faultless l) (m : Socket.Move)
    (hfails : ∀ k, Socket.Task.fail k ∈ (l.client.after m).reports →
      Socket.Task.fail k ∈ l.client.reports ∨ l.Greeted k) :
    Orderly { l with client := l.client.after m } where
  __ := h
  admits k t x' y hkt hx' hbatch hy := by
    obtain ⟨x, hx⟩ : ∃ x, l.client.world.calls[k]? = some x :=
      ⟨_, List.getElem?_eq_getElem (hl.call_lt hkt)⟩
    obtain ⟨x'', hx'', -, -, hsame⟩ := (l.client.extends_after m).keeps k x hx
    cases hx''.symm.trans hx'
    exact h.admits k t x y hkt hx (by rwa [← hsame]) hy
  fails k hk := by
    obtain ⟨x, t, y, hx, hbatch, hrest⟩ : l.Greeted k := (hfails k hk).elim (h.fails k) id
    obtain ⟨x', hx', -, -, hsame⟩ := (l.client.extends_after m).keeps k x hx
    exact ⟨x', t, y, hx', hsame.trans hbatch, hrest⟩
  heard := heard_client hl h.heard m (fun _ _ hmem hk _ => (h.settled hl hf hmem hk).1) rfl
  brought := h.brought_client hl hf m rfl

/-! ## Moves of the server -/

/-- Connections of the socket stay. -/
theorem conns_afterServer (l : State) (n : Server.Move) : l.conns ⊆ (l.afterServer n).conns := by
  intro c hc
  obtain ⟨k, t, hkt, hbegun⟩ := State.mem_conns.1 hc
  refine State.mem_conns.2 ⟨k, t, hkt, ?_⟩
  show c ∈ Server.entriesOf t (l.server.after n).begun
  cases l.server.enters_after n with
  | nothing _ _ hsame | tell _ _ _ hsame | take _ _ _ _ hsame => rwa [hsame]
  | begins _ _ hmore =>
    rw [hmore, Server.entriesOf_append]
    exact List.mem_append_left _ hbegun

/-- The threads of errands go on draining the connection of the socket, and are not refused. -/
theorem thread_after (h : Orderly l) (hl : Linked o l) (hf : Faultless l) (n : Server.Move)
    (hkt : (k, t) ∈ l.errands) {z : Server.Thread} (hz : (l.server.after n).world.threads[t]? = some z) :
    (∀ x, l.client.world.calls[k]? = some x → x.batch ≠ none → isSuccess z.answer.status = true) ∧
      ∀ d ∈ z.agenda, ∀ c, d.session? = some c → c ∈ l.conns := by
  obtain ⟨y, hy⟩ : ∃ y, l.server.world.threads[t]? = some y :=
    ⟨_, List.getElem?_eq_getElem (hl.thread_lt hkt)⟩
  have hdrains := h.drains k t y hkt hy
  have hadmits := fun x hx hbatch => h.admits k t x y hkt hx hbatch hy
  rcases l.server.thread_after hy n with ⟨z', hz', hstays⟩ | ⟨d, rest, hd, hworld⟩
  · cases hz'.symm.trans hz
    rw [hstays.answer]
    refine ⟨hadmits, fun e he c hc => ?_⟩
    rcases hstays.agenda with hsame | ⟨-, d, hside, hmore⟩
    · exact hdrains e (hsame ▸ he) c hc
    · rw [hmore, List.mem_cons] at he
      rcases he with rfl | he
      · rw [Server.Duty.session?_of_side hside] at hc
        cases hc
      · exact hdrains e he c hc
  · rw [hworld] at hz
    -- serving the request chooses the connection, every other duty stays with it
    by_cases hserve : ∃ r, d = .serve r
    · obtain ⟨r, rfl⟩ := hserve
      obtain ⟨x, z', hx, hz', hanswer, hdrains'⟩ := hl.serve hf hkt ⟨hy, hd⟩
      cases hz'.symm.trans hz
      refine ⟨fun x' hx' hbatch => ?_, hdrains'⟩
      cases hx.symm.trans hx'
      rw [hanswer hbatch]
      exact hadmits x hx hbatch
    · obtain ⟨z', hz', hremains⟩ := Server.World.Next.duty ⟨hy, hd⟩ fun r hr => hserve ⟨r, hr⟩
      cases hz'.symm.trans hz
      refine ⟨fun x hx hbatch => ?_, fun e he c hc => ?_⟩
      · rcases hremains.status with hsame | hok
        · rw [hsame]
          exact hadmits x hx hbatch
        · rw [hok]
          rfl
      · rcases hremains.duties e he with hrest | ⟨-, hsession⟩
        · exact hdrains e (by rw [hd]; exact List.mem_cons_of_mem d hrest) c hc
        · exact hdrains d (by rw [hd]; exact List.mem_cons_self) c (hsession c hc)

/-- What a thread enters for the socket is about the connection of the socket. -/
theorem enter {α : Type} {entries entries' : List (Nat × Nat × α)} {a : α}
    (hentries : entries' = entries ++ [(t, c, a)])
    (hold : ∀ k u, (k, u) ∈ l.errands → ∀ e ∈ Server.entriesOf u entries, e.1 ∈ l.conns)
    (hnew : ∀ k, (k, t) ∈ l.errands → c ∈ l.conns) (k u : Nat) (hku : (k, u) ∈ l.errands) :
    ∀ e ∈ Server.entriesOf u entries', e.1 ∈ l.conns := by
  intro e he
  rw [hentries, Server.entriesOf_append, Server.entriesOf_singleton, List.mem_append] at he
  rcases he with he | he
  · exact hold k u hku e he
  · split at he
    next htu =>
      subst htu
      rw [List.mem_singleton.1 he]
      exact hnew k hku
    next => cases he

/-- A move of the server lets the handlers hear what is next to be heard, if the calls of threads that
have not come to their ends are outstanding. -/
theorem heard_server (hl : Linked o l) (n : Server.Move)
    (hactive : ∀ {k t : Nat}, (k, t) ∈ l.errands → ∀ {y : Server.Thread},
      l.server.world.threads[t]? = some y → y.agenda ≠ [] →
      Socket.completed l.client.taken k = false) :
    (l.afterServer n).seen.map (·.2) ++ (l.afterServer n).unheard =
      l.seen.map (·.2) ++ l.unheard := by
  cases l.server.enters_after n with
  | nothing hsame | take _ _ hsame | begins hsame =>
    have hseen : (l.afterServer n).seen = l.seen := by
      show l.ours (l.server.after n).told = _
      rw [hsame]
      rfl
    have hunheard : (l.afterServer n).unheard = l.unheard := by
      refine State.unheard_congr rfl fun k => ?_
      show l.entriesFor k (l.server.after n).told = _
      rw [hsame]
      rfl
    rw [hseen, hunheard]
  | tell hx hmore =>
    -- the entry is one of a thread that is still at work
    refine hl.tell (linked_after hl (.server n)) rfl rfl hmore fun k hkt => ?_
    exact hactive hkt hx.thread (hx.agenda ▸ List.cons_ne_nil _ _)

theorem told_after (h : Orderly l) (n : Server.Move) :
    ∀ k t, (k, t) ∈ l.errands → ∀ e ∈ (l.server.after n).toldBy t, e.1 ∈ l.conns := by
  cases l.server.enters_after n with
  | nothing hsame | take _ _ hsame | begins hsame =>
    intro k t hkt e he
    rw [Server.Books.toldBy, hsame] at he
    exact h.told k t hkt e he
  | tell hx hmore =>
    refine enter hmore h.told fun k hkt => ?_
    exact h.drains k _ _ hkt hx.thread _ (hx.agenda ▸ List.mem_cons_self) _ rfl

theorem takes_after (h : Orderly l) (hl : Linked o l) (n : Server.Move) :
    (∀ k t, (k, t) ∈ l.errands → ∀ e ∈ (l.server.after n).takesBy t, e.1 ∈ l.conns) ∧
      ∃ news, ((l.afterServer n).took.map (·.2)).flatten = (l.took.map (·.2)).flatten ++ news ∧
        (l.afterServer n).transit = l.transit ++ news := by
  cases l.server.enters_after n with
  | nothing _ hsame | tell _ _ hsame | begins _ hsame =>
    constructor
    · intro k t hkt e he
      rw [Server.Books.takesBy, hsame] at he
      exact h.takes k t hkt e he
    · have htook : (l.afterServer n).took = l.took := by
        show l.ours (l.server.after n).takes = _
        rw [hsame]
        rfl
      have htransit : (l.afterServer n).transit = l.transit := by
        refine State.transit_congr rfl fun k => ?_
        show l.entriesFor k (l.server.after n).takes = _
        rw [hsame]
        rfl
      exact ⟨[], by rw [htook, List.append_nil], by rw [htransit, List.append_nil]⟩
  | take hx hd _ hmore =>
    have hl' := linked_after hl (.server n)
    refine ⟨enter hmore h.takes fun k hkt => ?_, hl.take hl' rfl rfl hmore fun k hkt => ?_⟩
    · have hc := Server.Duty.session?_of_takesFrom? hd
      exact h.drains k _ _ hkt hx.thread _ (hx.agenda ▸ List.mem_cons_self) _ hc
    · exact h.active hl hkt hx.thread (hx.agenda ▸ List.cons_ne_nil _ _)

theorem move_server (h : Orderly l) (hl : Linked o l) (hf : Faultless l) (n : Server.Move) :
    Orderly (l.afterServer n) := by
  have hconns := conns_afterServer l n
  have htold := h.told_after n
  have hheard := heard_server hl n (h.active hl)
  obtain ⟨htakes, news, htook, htransit⟩ := h.takes_after hl n
  exact
    { drains k t z hkt hz d hd c hc := hconns ((h.thread_after hl hf n hkt hz).2 d hd c hc)
      told k t hkt e he := hconns (htold k t hkt e he)
      takes k t hkt e he := hconns (htakes k t hkt e he)
      admits k t x z hkt hx hbatch hz := (h.thread_after hl hf n hkt hz).1 x hx hbatch
      fails k hk := by
        obtain ⟨x, t, y, hx, hbatch, hkt, hy, hagenda⟩ := h.fails k hk
        obtain ⟨z, hz, hza, -⟩ := l.server.finished_after hy hagenda n
        exact ⟨x, t, z, hx, hbatch, hkt, hz, hza⟩
      heard := hheard.trans h.heard
      brought := by
        rw [htook, htransit, h.brought, List.append_assoc]
        rfl }

/-- The request of a call reaches the server. -/
theorem request (h : Orderly l) (hl : Linked o l) (k : Nat) (r : Server.Request) :
    Orderly { l with
      server := l.server.after (.request r)
      errands := l.errands ++ [(k, l.server.world.threads.length)] } := by
  obtain ⟨htold, htakes, -⟩ := hl.server.unborn _ le_rfl
  set l' : State := { l with
    server := l.server.after (.request r)
    errands := l.errands ++ [(k, l.server.world.threads.length)] }
  have hthreads : l'.server.world.threads = l.server.world.threads ++ [{ agenda := [.serve r] }] := rfl
  have hconns : l.conns ⊆ l'.conns := by
    show l.errands.flatMap _ ⊆ (l.errands ++ _).flatMap _
    rw [List.flatMap_append]
    exact List.subset_append_left _ _
  -- an errand is one of before, whose thread is as it was, or the new one
  have hcases : ∀ k' t, (k', t) ∈ l'.errands → (k', t) ∈ l.errands ∧
      l'.server.world.threads[t]? = l.server.world.threads[t]? ∨
      t = l.server.world.threads.length ∧
        l'.server.world.threads[t]? = some { agenda := [.serve r] } := by
    intro k' t hkt
    rcases List.mem_append.1 hkt with hold | hnew
    · exact Or.inl ⟨hold, List.getElem?_append_left (hl.thread_lt hold)⟩
    · rw [List.mem_singleton] at hnew
      cases hnew
      exact Or.inr ⟨rfl, List.getElem?_concat_length⟩
  have hentries : ∀ {α : Type} {entries : List (Nat × Nat × α)},
      Server.entriesOf l.server.world.threads.length entries = [] →
      (∀ k t, (k, t) ∈ l.errands → ∀ e ∈ Server.entriesOf t entries, e.1 ∈ l.conns) →
      ∀ k t, (k, t) ∈ l'.errands → ∀ e ∈ Server.entriesOf t entries, e.1 ∈ l'.conns := by
    intro α entries hnone hold k' t hkt e he
    rcases hcases k' t hkt with ⟨hkt, -⟩ | ⟨rfl, -⟩
    · exact hconns (hold k' t hkt e he)
    · rw [hnone] at he
      cases he
  have hseen : l'.seen = l.seen := l.ours_request _ k htold
  have htook : l'.took = l.took := l.ours_request _ k htakes
  have hunheard : l'.unheard = l.unheard :=
    State.unheard_congr rfl (l.entriesFor_request _ k htold)
  have htransit : l'.transit = l.transit :=
    State.transit_congr rfl (l.entriesFor_request _ k htakes)
  refine ⟨?_, hentries htold h.told, hentries htakes h.takes, ?_, ?_, ?_, ?_⟩
  · intro k' t y hkt hy d hd c hc
    rcases hcases k' t hkt with ⟨hkt, hsame⟩ | ⟨-, hnew⟩
    · exact hconns (h.drains k' t y hkt (hsame ▸ hy) d hd c hc)
    · rw [hnew, Option.some.injEq] at hy
      rw [← hy, List.mem_singleton] at hd
      rw [hd] at hc
      cases hc
  · intro k' t x y hkt hx hbatch hy
    rcases hcases k' t hkt with ⟨hkt, hsame⟩ | ⟨-, hnew⟩
    · exact h.admits k' t x y hkt hx hbatch (hsame ▸ hy)
    · rw [hnew, Option.some.injEq] at hy
      rw [← hy]
      rfl
  · intro k' hk'
    obtain ⟨x, t, y, hx, hbatch, hkt, hy, hagenda⟩ := h.fails k' hk'
    refine ⟨x, t, y, hx, hbatch, List.mem_append_left _ hkt, ?_, hagenda⟩
    rw [hthreads, List.getElem?_append_left (hl.thread_lt hkt), hy]
  · rw [hseen, hunheard]
    exact h.heard
  · rw [htook, htransit]
    exact h.brought

end Orderly

/-! ## Runs -/

/-- As long as the socket has been told of no failure, what the handlers of the server were told for it and
what they are still to be told are the batches of its calls. -/
theorem heard_of_unfailing (o : Socket.Options) (settings : Server.Settings)
    (limiter : Option Server.Limiter) (ids : Server.Ids) (moves : List Move)
    (hfails : ∀ k, Socket.Task.fail k ∉ (run o (.new settings limiter ids) moves).client.taken) :
    let l := run o (.new settings limiter ids) moves
    l.seen.map (·.2) ++ l.unheard = (l.client.world.callsOf 0).flatMap l.client.world.batch := by
  induction moves using List.reverseRecOn with
  | nil => rfl
  | append_singleton more m ih =>
    have hl := linked_run o settings limiter ids more
    rw [run_concat] at hfails ⊢
    dsimp only at ih ⊢
    set l := run o (.new settings limiter ids) more
    -- failures that were taken stay among the tasks
    have hclient : ∀ n : Socket.Move, (∀ k, Socket.Task.fail k ∉ (l.client.after n).taken) →
        let l' : State := { l with client := l.client.after n }
        l'.seen.map (·.2) ++ l'.unheard = (l'.client.world.callsOf 0).flatMap l'.client.world.batch := by
      intro n hnone
      have hheard := ih fun k hk => hnone k ((l.client.extends_after n).taken.subset hk)
      refine Orderly.heard_client hl hheard n (fun task k hmem hk htaken => ?_) rfl
      cases task with
      | succeed c body =>
        cases hk
        exact Orderly.told_of_succeed hl hmem
      | fail c => exact absurd (by rw [htaken]; simp) (hnone c)
      | _ => cases hk
    have hpasses := l.passes_after m
    generalize l.after m = l' at hpasses hfails ⊢
    cases hpasses with
    | idle => exact ih hfails
    | client hlocal => exact hclient _ hfails
    | server n =>
      rw [Orderly.heard_server hl n (Orderly.active_of_fails hl fun k hk => absurd hk (hfails k))]
      exact ih hfails
    | @request k x r =>
      obtain ⟨htold, -⟩ := hl.server.unborn _ le_rfl
      set l' : State := { l with
        server := l.server.after (.request (received r))
        errands := l.errands ++ [(k, l.server.world.threads.length)] }
      have hseen : l'.seen = l.seen := l.ours_request _ k htold
      have hunheard : l'.unheard = l.unheard :=
        State.unheard_congr rfl (l.entriesFor_request _ k htold)
      rw [hseen, hunheard]
      exact ih hfails
    | reply | lose k => exact hclient _ hfails

/-- The invariant holds of every run without faults that loses nothing. -/
theorem orderly_run (o : Socket.Options) (settings : Server.Settings)
    (limiter : Option Server.Limiter) (ids : Server.Ids) (moves : List Move)
    (hkept : ∀ k, Move.lose k ∉ moves)
    (hfaultless : ∀ front, front <+: moves → Faultless (run o (.new settings limiter ids) front)) :
    Orderly (run o (.new settings limiter ids) moves) := by
  refine run_induction (motive := fun moves l => (∀ k, Move.lose k ∉ moves) →
    (∀ front, front <+: moves → Faultless (run o (.new settings limiter ids) front)) → Orderly l) o settings
    limiter ids ?_ (fun {more m l l'} hrun hl ih hpasses hkept hfaultless => ?_) moves hkept hfaultless
  · intro _ _
    exact
      { drains _ _ _ hkt := absurd hkt List.not_mem_nil
        told _ _ hkt := absurd hkt List.not_mem_nil
        takes _ _ hkt := absurd hkt List.not_mem_nil
        admits _ _ _ _ hkt := absurd hkt List.not_mem_nil
        fails _ hk := by cases hk
        heard := rfl
        brought := rfl }
  · have hmore : more <+: more ++ [m] := List.prefix_append more [m]
    have hf : Faultless l := hrun ▸ hfaultless more hmore
    replace ih := ih (fun k hk => hkept k (List.mem_append_left _ hk))
      fun front hfront => hfaultless front (hfront.trans hmore)
    cases hpasses with
    | idle => exact ih
    | client hlocal =>
      exact ih.move_client hl hf _ fun k hk => Or.inl ((l.client.proceeds_after hlocal).subset hk)
    | server n => exact ih.move_server hl hf n
    | request => exact ih.request hl _ _
    | @reply k t x y n hkt hx hy hn =>
      -- a reply reports a refusal or what the thread has answered
      rcases report?_cases hy hn with ⟨rfl, hended, hrefused⟩ | ⟨body, rfl, -⟩
      · refine ih.move_client hl hf _ fun k' hk' => ?_
        rcases (l.client.after_completion k (Or.inr ⟨rfl, rfl⟩)).2.2 _ hk' with hold | hnew
        · exact Or.inl hold
        · -- a drain would have been admitted
          cases hnew
          refine Or.inr ⟨x, t, y, hx, ?_, hkt, hy, hended⟩
          by_contra hbatch
          rw [ih.admits k t x y hkt hx hbatch hy] at hrefused
          cases hrefused
      · refine ih.move_client hl hf _ fun k' hk' => ?_
        rcases (l.client.after_completion k (Or.inl ⟨body, rfl, rfl⟩)).2.2 _ hk' with hold | hnew
        · exact Or.inl hold
        · cases hnew
    | lose k => exact absurd (by simp) (hkept k)

/-! ## Both directions -/

/-- What was entered for the socket is what was entered for its connection. -/
theorem entriesOf_conn {α : Type} {l : State} {entries : List (Nat × Nat × α)}
    (h : ∀ e ∈ entries, l.serves e.1 = true ↔ e.2.1 = c) :
    Server.entriesOf c (entries.map (·.2)) = (l.ours entries).map (·.2) := by
  rw [Server.entriesOf, List.filterMap_map, State.ours, List.map_filterMap]
  refine List.filterMap_congr fun e he => ?_
  by_cases hc : e.2.1 = c
  · simp [hc, (h e he).2 hc]
  · simp [hc, mt (h e he).1 hc]

namespace Orderly

variable {o : Socket.Options} {l : State}

/-- The connection of the socket is where its threads tell and take, and nobody else does. -/
theorem entries_of_conn (h : Orderly l) (hl : Linked o l) (hf : Faultless l) (hc : c ∈ l.conns) :
    l.server.toldFor c = l.seen.map (·.2) ∧ l.server.takesFrom c = l.took.map (·.2) := by
  constructor
  · refine entriesOf_conn fun e he => ⟨fun hserves => ?_, fun heq => ?_⟩
    · obtain ⟨k, hkt⟩ := State.serves_iff.1 hserves
      exact hl.conns_unique (h.told k e.1 hkt e.2 (Server.mem_entriesOf.2 he)) hc
    · by_contra hnot
      exact (hl.foreign hf hc (Bool.eq_false_iff.2 hnot)).1 e.2.2 (heq ▸ he)
  · refine entriesOf_conn fun e he => ⟨fun hserves => ?_, fun heq => ?_⟩
    · obtain ⟨k, hkt⟩ := State.serves_iff.1 hserves
      exact hl.conns_unique (h.takes k e.1 hkt e.2 (Server.mem_entriesOf.2 he)) hc
    · by_contra hnot
      exact (hl.foreign hf hc (Bool.eq_false_iff.2 hnot)).2 e.2.2 (heq ▸ he)

/-- No batch was lost: a call that has failed is the handshake. -/
theorem batch_of_failed (h : Orderly l) (hk : Socket.failed l.client.taken k = true) :
    l.client.world.batch k = [] := by
  obtain ⟨task, htask, hfails⟩ := List.any_eq_true.1 hk
  cases task with
  | fail c =>
    obtain rfl := beq_iff_eq.1 hfails
    obtain ⟨x, -, -, hx, hnone, -⟩ :=
      h.fails c (List.mem_filter.2 ⟨List.mem_append_left _ htask, rfl⟩)
    rw [Socket.World.batch, hx, Option.bind_some, hnone]
    rfl
  | _ => cases hfails

end Orderly

/-- Without faults, a socket and a server are a pair of channels that deliver exactly once and in order.
What the handlers of the server were told in the connection of the socket, what they were not told yet
of the batch in flight and what waits in the socket are the messages that it was asked to send. What was
due to the consumer of the socket, what is left of the response that is being delivered or on its way
and what waits in the connection are the messages that the connection has accepted. If the handler for
messages is always there, the consumer was called with what was due to it. -/
theorem exactly_once (o : Socket.Options) (settings : Server.Settings)
    (limiter : Option Server.Limiter) (ids : Server.Ids) (moves : List Move)
    (hkept : ∀ k, Move.lose k ∉ moves)
    (hfaultless : ∀ front, front <+: moves → Faultless (run o (.new settings limiter ids) front)) :
    let l := run o (.new settings limiter ids) moves
    let x := l.client.world.socket 0
    l.seen.map (·.2) ++ l.unheard ++ x.pending = l.client.sent 0 ∧
    (∀ c ∈ l.conns, l.server.toldFor c = l.seen.map (·.2) ∧
      let rest := l.client.world.agenda.flatMap (Socket.Duty.messages 0) ++ l.transit ++
        l.server.world.pendingOf c
      Socket.messagesFor 0 l.client.emitted ++ rest = l.server.acceptedBy c ∧
      (Attended o (.new settings limiter ids) moves →
        Socket.messagesFor 0 l.client.world.callbacks ++ rest = l.server.acceptedBy c)) ∧
    (∀ id, x.session = .assigned id → ∃ c ∈ l.conns, l.server.world.idOf? c = some id) := by
  intro l x
  have hl : Linked o l := linked_run o settings limiter ids moves
  have hf : Faultless l := hfaultless moves List.prefix_rfl
  have h : Orderly l := orderly_run o settings limiter ids moves hkept hfaultless
  refine ⟨?_, fun c hc => ?_, fun id hid => ?_⟩
  · rw [h.heard]
    exact hl.sound.batches_append_pending fun c _ => h.batch_of_failed
  · obtain ⟨htold, htakes⟩ := h.entries_of_conn hl hf hc
    refine ⟨htold, ?_⟩
    intro rest
    have hdue : Socket.messagesFor 0 l.client.emitted ++ rest = l.server.acceptedBy c := by
      rw [hl.server.conserved c, htakes, h.brought, hl.sound.inbound 0]
      simp only [rest, List.append_assoc]
    exact ⟨hdue, fun hattends => by rw [messagesFor_callbacks o _ moves hattends, hdue]⟩
  · obtain ⟨k, t, c, hkt, hbegun, hconn⟩ := hl.session hid
    exact ⟨c, State.mem_conns.2 ⟨k, t, hkt, by simp [hbegun]⟩, hconn⟩

/-- A run that ends in the middle of a batch while messages wait on both sides. -/
def conversation : List Move := List.flatten [
  .client (.post 0 (.send "a")) :: clientSteps 3, .request 0 :: threadSteps 0 3,
  .reply 0 :: clientSteps 4, .request 1 :: threadSteps 1 8, .server (.send 0 "x") :: threadSteps 2 1,
  threadSteps 1 3, .server (.send 0 "y") :: threadSteps 3 1,
  [.client (.post 0 (.send "b")), .client (.post 0 (.send "c"))], .reply 1 :: clientSteps 8,
  .client (.post 0 (.send "d")) :: clientSteps 2, .request 2 :: threadSteps 4 5]

/-- The options of a socket with a handler for messages. -/
def attentive : Socket.Options := { address := "ws://host", handlers := { onMessage := some [] } }

theorem exactly_once_conversation :
    let l := run attentive (.new {} none {}) conversation
    let x := l.client.world.socket 0
    (∀ k, Move.lose k ∉ conversation) ∧
    (∀ front, front <+: conversation → Faultless (run attentive (.new {} none {}) front)) ∧
    Attended attentive (.new {} none {}) conversation ∧
    (0 ∈ l.conns ∧ l.unheard = ["c"] ∧ x.pending = ["d"] ∧ l.server.world.pendingOf 0 = ["y"] ∧
      Socket.messagesFor 0 l.client.world.callbacks = ["x"]) ∧
    l.seen.map (·.2) ++ l.unheard ++ x.pending = l.client.sent 0 ∧
    Socket.messagesFor 0 l.client.world.callbacks ++
      (l.client.world.agenda.flatMap (Socket.Duty.messages 0) ++ l.transit ++
        l.server.world.pendingOf 0) = l.server.acceptedBy 0 := by
  have hkept : ∀ k, Move.lose k ∉ conversation := by
    simp [conversation, clientSteps, threadSteps]
  -- the run is evaluated once, with all that is to be known of it
  have hrun : (∀ front ∈ conversation.inits, Faultless (run attentive (.new {} none {}) front) ∧
        ((run attentive (.new {} none {}) front).client.world.emitting?.all fun e =>
          !Socket.isFor 0 .onMessage e || (run attentive (.new {} none {}) front).client.world.attends e) = true) ∧
      0 ∈ (run attentive (.new {} none {}) conversation).conns ∧
      (run attentive (.new {} none {}) conversation).unheard = ["c"] ∧
      ((run attentive (.new {} none {}) conversation).client.world.socket 0).pending = ["d"] ∧
      (run attentive (.new {} none {}) conversation).server.world.pendingOf 0 = ["y"] ∧
      Socket.messagesFor 0 (run attentive (.new {} none {}) conversation).client.world.callbacks = ["x"] := by
    decide +kernel
  obtain ⟨hall, hstate⟩ := hrun
  have hfaultless : ∀ front, front <+: conversation →
      Faultless (run attentive (.new {} none {}) front) :=
    fun front hfront => (hall front ((List.mem_inits _ _).2 hfront)).1
  have hattended : Attended attentive (.new {} none {}) conversation := by
    intro front hfront data hdue
    have hattends := (hall front ((List.mem_inits _ _).2 hfront)).2
    rw [hdue] at hattends
    simpa [Socket.isFor, Socket.Event.slot] using hattends
  obtain ⟨hout, hin, -⟩ := exactly_once attentive {} none {} conversation hkept hfaultless
  exact ⟨hkept, hfaultless, hattended, hstate, hout, (hin 0 hstate.1).2.2 hattended⟩

end PollSocket.Link
