import PollSocket.Proofs.Link.Responses
import PollSocket.Proofs.Server.Holding

set_option autoImplicit false

/-!
# Delivery at most once

What a network that loses and delays can do to the messages of a socket, and what it cannot.

A socket that does not queue again sends every position along with one call, and a call is served once
at most: so no position is told twice (`nodup_run`). A request that is late can bring positions out of
order, but only if its call has failed before (`Linked.overdue_of_lt`). Without such requests positions
are told in increasing order (`sorted_of_not_tellsLate`). A drain that has hold of the session when its
failure is reported does no harm: later ones wait for it. `Fenced` is the invariant, which rests on who
holds the session, and the order follows if no drain takes hold of the session too late
(`sorted_of_not_locksLate`).

`at_most_once` puts this together with the order of what responses bring.
-/

namespace PollSocket.Link

variable {c k t : Nat} {y : Server.Thread} {o : Socket.Options} {l : State}

/-! ## Where positions come from -/

/-- What was heard comes from threads that serve the socket, and a position stands for the message that
the handlers were told. -/
structure Traced (l : State) : Prop where
  origin : ∀ p ∈ l.heard, ∃ k t, (k, t) ∈ l.errands ∧
    p ∈ (l.client.carried k).take (l.server.toldBy t).length
  texts : l.seen.map (·.2) = l.heard.map (l.client.text 0)

namespace Traced

theorem bounded (hl : Linked o l) (h : Traced l) : ∀ p ∈ l.heard, p < (l.client.sent 0).length := by
  intro p hp
  obtain ⟨k, t, hkt, htaken⟩ := h.origin p hp
  exact hl.known hkt (List.mem_of_mem_take htaken)

/-- The socket goes on. -/
theorem move_client (hl : Linked o l) (h : Traced l) {k : Socket.History} (e : l.client.Extends k) :
    Traced { l with client := k } where
  origin p hp := by
    obtain ⟨c, t, hct, htaken⟩ := h.origin p hp
    refine ⟨c, t, hct, ?_⟩
    obtain ⟨x, -, hx, -⟩ := hl.served c t hct
    show p ∈ (k.carried c).take _
    rwa [e.carried c (List.getElem?_eq_some_iff.1 hx).1]
  texts := by
    show l.seen.map (·.2) = l.heard.map (k.text 0)
    rw [h.texts]
    exact List.map_congr_left fun p hp => (text_of_extends e (h.bounded hl p hp)).symm

/-- The server goes on. -/
theorem move_server (hl : Linked o l) (h : Traced l) (m : Server.Move) : Traced (l.afterServer m) := by
  cases hl.hears m with
  | nothing htold hheard hseen =>
    refine ⟨fun p hp => ?_, by rw [hheard, hseen]; exact h.texts⟩
    rw [hheard] at hp
    obtain ⟨k, t, hkt, htaken⟩ := h.origin p hp
    refine ⟨k, t, hkt, ?_⟩
    show p ∈ (l.client.carried k).take ((l.server.after m).toldBy t).length
    rwa [htold k t hkt]
  | @tells k t c p data y rest hm hkt hy htold hp htext hheard hseen =>
    constructor
    · intro q hq
      rw [hheard, List.mem_append, List.mem_singleton] at hq
      -- an old position stays where it was, and the new one comes from the thread that tells
      rcases hq with hq | rfl
      · obtain ⟨j, u, hju, htaken⟩ := h.origin q hq
        refine ⟨j, u, hju, ?_⟩
        show q ∈ (l.client.carried j).take ((l.server.after m).toldBy u).length
        rw [hl.take_toldBy hkt htold hp hju]
        exact List.mem_append_left _ htaken
      · refine ⟨k, t, hkt, ?_⟩
        show q ∈ (l.client.carried k).take ((l.server.after m).toldBy t).length
        rw [hl.take_toldBy hkt htold hp hkt, if_pos rfl]
        exact List.mem_append_right _ (List.mem_singleton_self q)
    · rw [hheard, hseen]
      show _ = (l.heard ++ [p]).map (l.client.text 0)
      simp [h.texts, htext]

/-- The request of a call reaches the server. -/
theorem request (hl : Linked o l) (h : Traced l) (k : Nat) (r : Server.Request) :
    Traced { l with
      server := l.server.after (.request r)
      errands := l.errands ++ [(k, l.server.world.threads.length)] } where
  origin p hp := by
    obtain ⟨j, t, hjt, htaken⟩ := h.origin p hp
    exact ⟨j, t, List.mem_append_left _ hjt, htaken⟩
  texts := by
    have hseen := l.ours_request (l.server.after (.request r)) k (hl.server.unborn _ le_rfl).1
    exact (congrArg _ hseen).trans h.texts

end Traced

theorem traced_run (o : Socket.Options) (settings : Server.Settings) (limiter : Option Server.Limiter)
    (ids : Server.Ids) (moves : List Move) : Traced (run o (.new settings limiter ids) moves) := by
  refine run_induction (motive := fun _ l => Traced l) o settings limiter ids
    ⟨fun _ hp => absurd hp List.not_mem_nil, rfl⟩ (fun _ hl ih hpasses => ?_) moves
  cases hpasses with
  | idle => exact ih
  | client | reply | lose => exact ih.move_client hl (Socket.History.extends_after _ _)
  | server n => exact ih.move_server hl n
  | request => exact ih.request hl _ _

/-! ## Positions of calls in order -/

namespace Linked

/-- What does not go back into the queue goes along with calls in the order in which it was sent. -/
theorem carried_sorted (h : Linked o l) (ho : o.requeue = false) :
    (∀ k ∈ l.client.world.callsOf 0, (l.client.carried k).Pairwise (· < ·)) ∧
      ∀ k ∈ l.client.world.callsOf 0, ∀ j ∈ l.client.world.callsOf 0, k < j →
        ∀ p ∈ l.client.carried k, ∀ q ∈ l.client.carried j, p < q := by
  have hshipped := h.sound.ledger.shipped (h.requeue.trans ho)
  have hsorted : ((l.client.world.callsOf 0).flatMap l.client.carried).Pairwise (· < ·) := by
    refine List.Pairwise.sublist (List.sublist_append_left _ (l.client.queued 0)) ?_
    rw [hshipped]
    exact List.pairwise_lt_range
  obtain ⟨hwithin, hacross⟩ := List.pairwise_flatMap.1 hsorted
  refine ⟨hwithin, fun k hk j hj hkj => ?_⟩
  -- of two calls the older one comes first
  have hboth := hacross.and (l.client.world.callsOf_sorted 0)
  obtain ⟨i, hi, rfl⟩ := List.mem_iff_getElem.1 hk
  obtain ⟨i', hi', rfl⟩ := List.mem_iff_getElem.1 hj
  rcases Nat.lt_trichotomy i i' with hlt | rfl | hgt
  · exact (List.pairwise_iff_getElem.1 hboth i i' hi hi' hlt).1
  · exact absurd hkj (Nat.lt_irrefl _)
  · exact absurd hkj (Nat.not_lt_of_lt (List.pairwise_iff_getElem.1 hboth i' i hi' hi hgt).2)

end Linked

/-- A position that was heard stands before the next position of a call, unless a later call was heard
already. -/
theorem Traced.compare (hl : Linked o l) (ho : o.requeue = false) (h : Traced l) {p : Nat}
    (hkt : (k, t) ∈ l.errands) (hp : (l.client.carried k)[(l.server.toldBy t).length]? = some p) {q : Nat}
    (hq : q ∈ l.heard) : q < p ∨ p < q ∧ ∃ j u, (j, u) ∈ l.errands ∧ k < j ∧ l.server.toldBy u ≠ [] := by
  obtain ⟨j, u, hju, htaken⟩ := h.origin q hq
  obtain ⟨hwithin, hacross⟩ := hl.carried_sorted ho
  have hk := hl.mem_callsOf hkt
  have hj := hl.mem_callsOf hju
  have hpk := List.mem_of_getElem? hp
  have hqj := List.mem_of_mem_take htaken
  rcases Nat.lt_trichotomy j k with hlt | rfl | hgt
  · exact Or.inl (hacross j hj k hk hlt q hqj p hpk)
  · -- the thread itself has told it before
    obtain rfl : u = t := congrArg Prod.snd (List.inj_on_of_nodup_map hl.calls hju hkt rfl)
    obtain ⟨i, hi, rfl⟩ := List.mem_take_iff_getElem.1 htaken
    obtain ⟨hlength, rfl⟩ := List.getElem?_eq_some_iff.1 hp
    exact Or.inl (List.pairwise_iff_getElem.1 (hwithin j hj) i _ _ hlength (by omega))
  · refine Or.inr ⟨hacross k hk j hj hgt p hpk q hqj, j, u, hju, hgt, ?_⟩
    intro hnil
    rw [hnil] at htaken
    cases htaken

theorem nodup_run (o : Socket.Options) (ho : o.requeue = false) (settings : Server.Settings)
    (limiter : Option Server.Limiter) (ids : Server.Ids) (moves : List Move) :
    (run o (.new settings limiter ids) moves).heard.Nodup := by
  refine run_induction (motive := fun _ l => l.heard.Nodup) o settings limiter ids List.nodup_nil
    (fun hrun hl ih hpasses => ?_) moves
  cases hpasses with
  | server n =>
    cases hl.hears n with
    | nothing _ hheard => rwa [hheard]
    | @tells k t c p data y rest hm hkt hy htold hp htext hheard hseen =>
      rw [hheard, List.nodup_append]
      refine ⟨ih, List.nodup_singleton p, ?_⟩
      rintro q hq _ hnew rfl
      obtain rfl := List.mem_singleton.1 hnew
      -- the next position of a call differs from all that were heard
      have htraced := hrun ▸ traced_run o settings limiter ids _
      rcases htraced.compare hl ho hkt hp hq with hlt | ⟨hlt, -⟩
      · exact Nat.lt_irrefl _ hlt
      · exact Nat.lt_irrefl _ hlt
  | _ => exact ih

/-! ## Requests that come too late -/

namespace State

/-- The thread serves a call whose failure has been reported. -/
def overdue (l : State) (t : Nat) : Bool :=
  l.errands.any fun e => e.2 == t && Socket.failed l.client.taken e.1

/-- A move by which the server tells its handlers of a message for a call that has failed. -/
def tellsLate (l : State) : Move → Bool
  | .server (.step t) => l.overdue t && l.server.world.tells t
  | _ => false

/-- A move by which the server begins with a drain that has failed: its thread takes hold of the
session. -/
def locksLate (l : State) : Move → Bool
  | .server (.step t) => l.overdue t && l.server.world.ready t && l.server.world.locks t
  | _ => false

end State

/-- No move of a run is one of those that `late` names in the state that the move is made in. -/
def Never (late : State → Move → Bool) : State → List Move → Prop
  | _, [] => True
  | l, m :: more => late l m = false ∧ Never late (l.after m) more

instance (late : State → Move → Bool) : ∀ l moves, Decidable (Never late l moves)
  | _, [] => .isTrue trivial
  | l, m :: more =>
    have := instDecidableNever late (l.after m) more
    inferInstanceAs (Decidable (_ ∧ _))

theorem never_concat {late : State → Move → Bool} {moves : List Move} {m : Move} :
    Never late l (moves ++ [m]) ↔
      Never late l moves ∧ late (moves.foldl State.after l) m = false := by
  induction moves generalizing l with
  | nil => simp [Never]
  | cons n more ih =>
    rw [List.cons_append, Never, Never, ih, List.foldl_cons, and_assoc]

namespace Linked

/-- A call that is followed by another one is completed. -/
theorem completed_of_lt (h : Linked o l) {j u : Nat} (hkt : (k, t) ∈ l.errands) (hju : (j, u) ∈ l.errands)
    (hkj : k < j) : Socket.completed l.client.taken k = true := by
  by_contra hopen
  obtain ⟨x, -, hx, -⟩ := h.served k t hkt
  have hlast := h.le_of_outstanding hx (Bool.eq_false_iff.2 hopen) hju
  exact absurd hkj (Nat.not_lt.2 hlast)

/-- A thread whose call is followed by another one is overdue, or it has come to its end. -/
theorem overdue_of_lt (h : Linked o l) {j u : Nat} (hkt : (k, t) ∈ l.errands) (hju : (j, u) ∈ l.errands)
    (hkj : k < j) (hy : l.server.world.threads[t]? = some y) (hbusy : y.agenda ≠ []) :
    l.overdue t = true := by
  have hcompleted := h.completed_of_lt hkt hju hkj
  rw [Socket.completed, Bool.or_eq_true] at hcompleted
  rcases hcompleted with hsucceeded | hfailed
  · obtain ⟨body, t', hkt', z, hz, hended, -⟩ := h.succeeded hsucceeded
    obtain rfl : t' = t := congrArg Prod.snd (List.inj_on_of_nodup_map h.calls hkt' hkt rfl)
    cases hz.symm.trans hy
    exact absurd hended hbusy
  · rw [State.overdue, List.any_eq_true]
    exact ⟨(k, t), hkt, by simp [hfailed]⟩

/-- A thread that holds a connection of an errand holds the session of the socket. -/
theorem session_of_holds (h : Linked o l) (hkt : (k, t) ∈ l.errands)
    (hy : l.server.world.threads[t]? = some y) (hholds : y.Holds c) :
    ∃ id, (l.client.world.socket 0).session = .assigned id ∧ l.server.world.idOf? c = some id := by
  obtain ⟨x, r, hx, hr, hcourse⟩ := h.course hkt hy
  obtain ⟨q, hadmitted⟩ := hcourse.of_holds hholds
  exact (h.admitted hx hr hadmitted).2

/-- A thread of an errand holds the connection whose handlers it tells. -/
theorem holds_of_tells (h : Linked o l) (hkt : (k, t) ∈ l.errands) {data : String} {rest : List Server.Duty}
    (hy : l.server.world.Next t y (.trigger "message" c data) rest) : y.Holds c := by
  obtain ⟨x, r, -, -, hcourse⟩ := h.course hkt hy.thread
  exact hcourse.holds_of_session hy.agenda rfl rfl

end Linked

/-- The threads of a run hold what they are still to let go of. -/
theorem held_run (o : Socket.Options) (settings : Server.Settings) (limiter : Option Server.Limiter)
    (ids : Server.Ids) (moves : List Move) :
    (run o (.new settings limiter ids) moves).server.world.Held := by
  refine run_induction (motive := fun _ l => l.server.world.Held) o settings limiter ids
    (Server.held_new settings limiter ids) (fun _ hl ih hpasses => ?_) moves
  cases hpasses with
  | idle | client | reply | lose => exact ih
  | server n => exact Server.held_after hl.server ih n
  | request => exact Server.held_after hl.server ih _

/-- The ids of connections stay. -/
theorem State.Passes.idOf? {m : Move} {l' : State} (h : l.Passes m l') {id : String}
    (hid : l.server.world.idOf? c = some id) : l'.server.world.idOf? c = some id := by
  cases h with
  | idle | client | reply | lose => exact hid
  | server n => exact l.server.idOf?_after n hid
  | request => exact l.server.idOf?_after _ hid

/-! ## Positions in order -/

/-- The thread of a call holds nothing any more when a later call was heard. -/
def Fenced (l : State) : Prop :=
  ∀ k t j u, (k, t) ∈ l.errands → (j, u) ∈ l.errands → k < j → l.server.toldBy u ≠ [] →
    ∀ y : Server.Thread, l.server.world.threads[t]? = some y → ∀ c, ¬ y.Holds c

namespace Fenced

/-- The server goes on, and no thread that is overdue takes hold of the session. -/
theorem move_server (hl : Linked o l) (hheld : l.server.world.Held) (hdistinct : l.server.world.Distinct)
    (h : Fenced l) {m : Server.Move} (hlate : l.locksLate (.server m) = false) :
    Fenced (l.afterServer m) := by
  intro k t j u hkt hju hkj htold z hz c hzc
  obtain ⟨y, hy, hbefore⟩ := Server.holds_after l.server m hz hzc
  -- a thread that takes hold of the session now would be overdue
  have hyc : y.Holds c := by
    refine hbefore.resolve_right ?_
    rintro ⟨rfl, hready, rest, hagenda⟩
    have hoverdue := hl.overdue_of_lt hkt hju hkj hy (hagenda ▸ List.cons_ne_nil _ _)
    have hlocks : l.server.world.locks t = true := by
      rw [Server.World.locks, Server.World.Next.first ⟨hy, hagenda⟩]
      rfl
    simp only [State.locksLate, hoverdue, hready, hlocks] at hlate
    cases hlate
  change (l.server.after m).toldBy u ≠ [] at htold
  cases hl.hears m with
  | nothing hsame =>
    rw [hsame j u hju] at htold
    exact h k t j u hkt hju hkj htold y hy c hyc
  | @tells i v d p data x rest hm hiv hx htells =>
    by_cases huv : u = v
    · -- the later call tells now, so its thread holds the session, and no other thread does
      subst huv
      have hxd := hl.holds_of_tells hiv hx
      obtain ⟨id, hid, hc⟩ := hl.session_of_holds hkt hy hyc
      obtain ⟨id', hid', hd⟩ := hl.session_of_holds hiv hx.thread hxd
      rw [hid, SessionId.assigned.injEq] at hid'
      obtain rfl : c = d := Server.World.distinct_iff.1 hdistinct c d id hc (hid' ▸ hd)
      obtain rfl := (hheld t y c hy hyc).unique (hheld u x c hx.thread hxd)
      have hkj' : k = j := congrArg Prod.fst (List.inj_on_of_nodup_map hl.threads hkt hju rfl)
      exact absurd hkj' hkj.ne
    · have hsame : (l.server.after m).toldBy u = l.server.toldBy u := by
        simp [htells, Server.entriesOf, Ne.symm huv]
      rw [hsame] at htold
      exact h k t j u hkt hju hkj htold y hy c hyc

/-- The request of a call reaches the server. -/
theorem request (hl : Linked o l) (h : Fenced l) (k : Nat) (r : Server.Request) :
    Fenced { l with
      server := l.server.after (.request r)
      errands := l.errands ++ [(k, l.server.world.threads.length)] } := by
  intro i t j u hit hju hij htold z hz c hzc
  obtain ⟨y, hy, hyc | ⟨hm, -⟩⟩ := Server.holds_after l.server (.request r) hz hzc
  · have hold : ∀ {i t : Nat}, (i, t) ∈ l.errands ++ [(k, l.server.world.threads.length)] →
        t < l.server.world.threads.length → (i, t) ∈ l.errands := by
      intro i t hmem hlt
      refine (List.mem_append.1 hmem).resolve_right fun hnew => ?_
      rw [List.mem_singleton, Prod.mk.injEq] at hnew
      exact hlt.ne hnew.2
    -- both threads are old ones: the new one has told nothing and holds nothing
    have ht : t < l.server.world.threads.length := (List.getElem?_eq_some_iff.1 hy).1
    have hu : u < l.server.world.threads.length := by
      by_contra hge
      exact htold (hl.server.unborn u (Nat.le_of_not_lt hge)).1
    exact h i t j u (hold hit ht) (hold hju hu) hij htold y hy c hyc
  · cases hm

end Fenced

/-- A move of the server keeps the order of positions if a thread tells only when no later call was
heard. -/
theorem Traced.sorted_after (hl : Linked o l) (ho : o.requeue = false)
    (h : Traced l) (hsorted : l.heard.Pairwise (· < ·)) (m : Server.Move)
    (hfirst : ∀ k t j u, m = .step t → l.server.world.tells t = true → (k, t) ∈ l.errands →
      (j, u) ∈ l.errands → k < j → l.server.toldBy u = []) :
    (l.afterServer m).heard.Pairwise (· < ·) := by
  cases hl.hears m with
  | nothing _ hheard => rwa [hheard]
  | @tells k t c p data y rest hm hkt hy htold hp htext hheard hseen =>
    have htells : l.server.world.tells t = true := by
      rw [Server.World.tells, hy.first]
      rfl
    rw [hheard, List.pairwise_append]
    refine ⟨hsorted, List.pairwise_singleton _ _, fun q hq p' hp' => ?_⟩
    obtain rfl := List.mem_singleton.1 hp'
    apply (h.compare hl ho hkt hp hq).resolve_right
    rintro ⟨-, j, u, hju, hkj, hheardLater⟩
    exact hheardLater (hfirst k t j u hm htells hkt hju hkj)

/-- If no message is told for a call that has failed, positions are told in increasing order. -/
theorem sorted_of_not_tellsLate (o : Socket.Options) (ho : o.requeue = false) (settings : Server.Settings)
    (limiter : Option Server.Limiter) (ids : Server.Ids) (moves : List Move)
    (hlate : Never State.tellsLate (.start o (.new settings limiter ids)) moves) :
    (run o (.new settings limiter ids) moves).heard.Pairwise (· < ·) := by
  refine run_induction (motive := fun moves l => Never State.tellsLate _ moves → l.heard.Pairwise (· < ·)) o
    settings limiter ids (fun _ => List.Pairwise.nil) (fun {more m l l'} hrun hl ih hpasses hlate => ?_) moves hlate
  obtain ⟨hbefore, hnow⟩ := never_concat.1 hlate
  replace ih := ih hbefore
  change State.tellsLate (run o (.new settings limiter ids) more) m = false at hnow
  rw [← hrun] at hnow
  cases hpasses with
  | server n =>
    refine (hrun ▸ traced_run o settings limiter ids more : Traced l).sorted_after hl ho ih n ?_
    rintro k t j u rfl htells hkt hju hkj
    -- the thread is not overdue, so its call is the last one
    obtain ⟨y, hy⟩ : ∃ y, l.server.world.threads[t]? = some y :=
      ⟨_, List.getElem?_eq_getElem (hl.thread_lt hkt)⟩
    have hbusy : y.agenda ≠ [] := by
      intro hnil
      simp [Server.World.tells, Server.World.first?, hy, hnil] at htells
    have hoverdue := hl.overdue_of_lt hkt hju hkj hy hbusy
    simp only [State.tellsLate, hoverdue, htells] at hnow
    cases hnow
  | _ => exact ih

/-- With ids that do not repeat it is enough that no drain that has failed takes hold of the session:
those that have hold of it are ahead of all later ones. -/
theorem sorted_of_not_locksLate (o : Socket.Options) (ho : o.requeue = false) (settings : Server.Settings)
    (limiter : Option Server.Limiter) (ids : Server.Ids) (moves : List Move)
    (hdistinct : (run o (.new settings limiter ids) moves).server.world.Distinct)
    (hlate : Never State.locksLate (.start o (.new settings limiter ids)) moves) :
    Fenced (run o (.new settings limiter ids) moves) ∧
      (run o (.new settings limiter ids) moves).heard.Pairwise (· < ·) := by
  refine run_induction (motive := fun moves l => l.server.world.Distinct → Never State.locksLate _ moves →
    Fenced l ∧ l.heard.Pairwise (· < ·)) o settings limiter ids ?_ ?_ moves hdistinct hlate
  · exact fun _ _ => ⟨fun k t j u hkt => absurd hkt List.not_mem_nil, List.Pairwise.nil⟩
  · intro more m l l' hrun hl ih hpasses hdistinct hlate
    obtain ⟨hbefore, hnow⟩ := never_concat.1 hlate
    replace hdistinct := hdistinct.of_kept fun c id => hpasses.idOf?
    obtain ⟨hfenced, hsorted⟩ := ih hdistinct hbefore
    change State.locksLate (run o (.new settings limiter ids) more) m = false at hnow
    have htraced := traced_run o settings limiter ids more
    have hheld := held_run o settings limiter ids more
    rw [← hrun] at hnow htraced hheld
    cases hpasses with
    | idle | client | reply | lose => exact ⟨hfenced, hsorted⟩
    | request => exact ⟨hfenced.request hl _ _, hsorted⟩
    | server n =>
      refine ⟨hfenced.move_server hl hheld hdistinct hnow, htraced.sorted_after hl ho hsorted n ?_⟩
      rintro k t j u - htells hkt hju hkj
      -- a thread that tells holds the session, so no later call was heard
      by_contra hheard
      obtain ⟨y, hy⟩ : ∃ y, l.server.world.threads[t]? = some y :=
        ⟨_, List.getElem?_eq_getElem (hl.thread_lt hkt)⟩
      obtain ⟨c, data, rest, hagenda⟩ := Server.World.agenda_of_tells hy htells
      exact hfenced k t j u hkt hju hkj hheard y hy c (hl.holds_of_tells hkt ⟨hy, hagenda⟩)

/-! ## At most once -/

/-- Over a network that loses and delays requests and responses, but takes every request to the server
once at most, messages are delivered at most once and in order, both ways.

Positions that the handlers of the server were told stand for what they were told in the session of the
socket. If the socket does not queue again, no position is told twice, and positions are told in
increasing order if no message is told for a call whose failure has been reported; with ids that do not
repeat it is enough that no such call takes hold of the session.

Whether the socket queues again or not, its consumer is called with messages that were due to it, with
all of them if the handler is always there. What was due stands, by connection and position, for messages
that connections with the id of its session have accepted, in their order and without repetition. With ids
that do not repeat there is one such connection, and what was due is a part of what it has accepted. -/
theorem at_most_once (o : Socket.Options) (settings : Server.Settings) (limiter : Option Server.Limiter)
    (ids : Server.Ids) (moves : List Move) :
    let s := Server.History.new settings limiter ids
    let l := run o s moves
    let x := l.client.world.socket 0
    let due := Socket.messagesFor 0 l.client.emitted
    let dispatched := Socket.messagesFor 0 l.client.world.callbacks
    (l.seen.map (·.2) = l.heard.map (l.client.text 0) ∧
      (∀ p ∈ l.heard, p < (l.client.sent 0).length) ∧
      (∀ e ∈ l.seen, ∃ id, x.session = .assigned id ∧ l.server.world.idOf? e.1 = some id) ∧
      ((∀ r, Move.server (.request r) ∉ moves) → l.seen = l.server.told.map (·.2))) ∧
    (o.requeue = false →
      l.heard.Nodup ∧
      (Never State.tellsLate (.start o s) moves → l.heard.Pairwise (· < ·)) ∧
      (l.server.world.Distinct → Never State.locksLate (.start o s) moves →
        l.heard.Pairwise (· < ·))) ∧
    (dispatched.Sublist due ∧ (Attended o s moves → dispatched = due) ∧
      due.map some <+: l.delivered.map l.accepted? ∧
      (l.client.world.idle = true → due.map some = l.delivered.map l.accepted?) ∧
      (l.delivered.Pairwise fun e e' => e.1 = e'.1 → e.2 < e'.2) ∧
      (∀ e ∈ l.delivered, ∃ id, x.session = .assigned id ∧ l.server.world.idOf? e.1 = some id) ∧
      (l.server.world.Distinct → ∀ c id, x.session = .assigned id → l.server.world.idOf? c = some id →
        due.Sublist (l.server.acceptedBy c))) := by
  intro s l x due dispatched
  have hl := linked_run o settings limiter ids moves
  have htraced := traced_run o settings limiter ids moves
  have hinTurn := inTurn_run o settings limiter ids moves
  obtain ⟨clientMoves, hclient⟩ := hl.client
  -- what the answers have brought was due, or it is on the agenda
  have harrived : due ++ l.client.world.agenda.flatMap (Socket.Duty.messages 0) =
      (l.client.answers 0).flatMap Socket.messagesOf := by
    have hboth := Socket.messagesFor_append_agenda clientMoves 0
    rwa [← hclient] at hboth
  refine ⟨⟨htraced.texts, htraced.bounded hl, fun e he => session_of_seen hl he,
      seen_of_alone o settings limiter ids moves⟩, fun ho => ⟨?_, ?_, ?_⟩, ?_,
    messagesFor_callbacks o s moves, ?_, ?_, ?_, ?_, ?_⟩
  · exact nodup_run o ho settings limiter ids moves
  · exact sorted_of_not_tellsLate o ho settings limiter ids moves
  · exact fun hdistinct hlate =>
      (sorted_of_not_locksLate o ho settings limiter ids moves hdistinct hlate).2
  · have hcalled := Socket.History.callbacks_sublist clientMoves
    rw [← hclient] at hcalled
    exact hcalled.filterMap _
  · rw [hl.map_delivered, ← harrived, List.map_append]
    exact List.prefix_append _ _
  · intro hidle
    have hall := Socket.messagesFor_of_idle clientMoves 0
    rw [← hclient] at hall
    rw [hl.map_delivered, ← hall hidle]
  · exact delivered_sorted hl hinTurn
  · exact fun e he => hl.session_of_delivered he
  · intro hdistinct c id hid hc
    have hpart := answers_sublist hl hinTurn hdistinct hid hc
    rw [← harrived] at hpart
    exact (List.sublist_append_left _ _).trans hpart

/-- A run in which a response is lost, and the next drain arrives while the server still serves the one
that has failed: the message `c` that is taken then never arrives, and the socket goes on with `d`. -/
def lostResponse : List Move :=
  .client (.post 0 (.send "a")) :: clientSteps 3 ++ .request 0 :: threadSteps 0 3 ++
    .reply 0 :: clientSteps 4 ++ .request 1 :: threadSteps 1 6 ++ .lose 1 :: clientSteps 2 ++
    .client (.post 0 (.send "b")) :: clientSteps 2 ++ .request 2 :: threadSteps 2 2 ++
    .server (.send 0 "c") :: threadSteps 3 1 ++ threadSteps 1 3 ++ threadSteps 2 6 ++
    .server (.send 0 "d") :: threadSteps 4 1 ++ threadSteps 2 3 ++ .reply 2 :: clientSteps 7

/-- The options of a socket that does not queue again, with a handler for messages. -/
def forgetful : Socket.Options := { address := "ws://host", handlers := { onMessage := some [] } }

theorem at_most_once_lostResponse :
    let s := Server.History.new {} none {}
    let l := run forgetful s lostResponse
    let due := Socket.messagesFor 0 l.client.emitted
    let dispatched := Socket.messagesFor 0 l.client.world.callbacks
    (forgetful.requeue = false ∧ l.server.world.Distinct ∧
      Never State.tellsLate (.start forgetful s) lostResponse ∧
      Never State.locksLate (.start forgetful s) lostResponse ∧ l.client.world.idle = true) ∧
    (l.heard = [0, 1] ∧ l.heard.Nodup ∧ l.heard.Pairwise (· < ·) ∧ l.seen = l.server.told.map (·.2)) ∧
    l.server.acceptedBy 0 = ["c", "d"] ∧ l.delivered = [(0, 1)] ∧ dispatched = ["d"] ∧
      dispatched.Sublist due ∧ due.map some = l.delivered.map l.accepted? ∧
      due.Sublist (l.server.acceptedBy 0) := by
  have halone : ∀ r, Move.server (.request r) ∉ lostResponse := by
    simp [lostResponse, clientSteps, threadSteps]
  have hrun :
      let s := Server.History.new {} none {}
      let l := run forgetful s lostResponse
      (l.server.world.Distinct ∧ Never State.tellsLate (.start forgetful s) lostResponse ∧
      Never State.locksLate (.start forgetful s) lostResponse ∧ l.client.world.idle = true) ∧
      (l.heard = [0, 1] ∧ l.server.acceptedBy 0 = ["c", "d"] ∧ l.delivered = [(0, 1)] ∧
        Socket.messagesFor 0 l.client.world.callbacks = ["d"]) ∧
      ∃ id ∈ l.server.world.idOf? 0, (l.client.world.socket 0).session = .assigned id := by
    decide +kernel
  obtain ⟨⟨hdistinct, htells, hlocks, hidle⟩, ⟨hheard, haccepted, hdelivered, hdispatched⟩, id, hc, hid⟩ :=
    hrun
  obtain ⟨⟨-, -, -, hseen⟩, hforgetful, hcalled, -, -, hwhole, -, -, hpart⟩ :=
    at_most_once forgetful {} none {} lostResponse
  obtain ⟨hnodup, hpromptly, -⟩ := hforgetful rfl
  exact ⟨⟨rfl, hdistinct, htells, hlocks, hidle⟩, ⟨hheard, hnodup, hpromptly htells, hseen halone⟩,
    haccepted, hdelivered, hdispatched, hcalled, hwhole hidle, hpart hdistinct 0 id hid (Option.mem_def.1 hc)⟩

end PollSocket.Link
