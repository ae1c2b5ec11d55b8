import PollSocket.Proofs.Socket.Flights

set_option autoImplicit false

/-!
# Where messages are

`Ledger` is the invariant that accounts for every message a socket was asked to send, by positions.
On a socket that queues again after a failure, the positions of the calls that have not failed, then
those that wait are all positions in order. On any other socket the positions of all calls, then those
that wait are. Positions stand for texts: queues and batches hold the messages at the positions that
the books have for them.
-/

namespace PollSocket.Socket

variable {x : Call} {l : Loop Task} {c s : Nat} {t : Task} {w : World}

section

variable (b : Books)

theorem sent_take (w : World) (t : Task) (s : Nat) :
    (b.take w t).sent s = b.sent s ++ (t.sentOn? s).toList := by
  simp only [Books.sent, Books.take, List.filterMap_append, List.filterMap_cons]
  cases t.sentOn? s <;> rfl

/-- A position that was sent keeps its text. -/
theorem text_take (w : World) (t : Task) {p : Nat} (hp : p < (b.sent s).length) :
    (b.take w t).text s p = b.text s p := by
  rw [Books.text, sent_take, List.getD_append _ _ _ _ hp, Books.text]

/-! ## Books once a call is issued -/

variable (k : Nat)

section

variable (o : Option Call)

theorem taken_issue : (b.issue k o).taken = b.taken := by
  unfold Books.issue
  split <;> rfl

theorem emitted_issue : (b.issue k o).emitted = b.emitted := by
  unfold Books.issue
  split <;> rfl

theorem sent_issue (s : Nat) : (b.issue k o).sent s = b.sent s := by
  rw [Books.sent, taken_issue, Books.sent]

theorem text_issue (s : Nat) : (b.issue k o).text s = b.text s := by
  funext p
  rw [Books.text, sent_issue, Books.text]

end

theorem carried_issue_of_ne {k : Nat} (hc : c ≠ k) (o : Option Call) :
    (b.issue k o).carried c = b.carried c := by
  unfold Books.issue
  split <;> exact if_neg hc

theorem queued_issue_of_ne (hs : s ≠ x.owner) : (b.issue k (some x)).queued s = b.queued s := by
  obtain ⟨owner, exchange, batch, aborted, answered⟩ := x
  cases batch with
  | none => rfl
  | some m => exact if_neg hs

/-- A drain takes along all that waits in its socket. -/
theorem issue_drain {m : List String} (hx : x.batch = some m) :
    (b.issue k (some x)).carried k = b.queued x.owner ∧
      (b.issue k (some x)).queued x.owner = [] := by
  obtain ⟨owner, exchange, batch, aborted, answered⟩ := x
  obtain rfl : batch = some m := hx
  exact ⟨if_pos rfl, if_pos rfl⟩

/-- A handshake takes nothing along. -/
theorem issue_handshake (hx : x.batch = none) : (b.issue k (some x)).carried k = [] ∧
      (b.issue k (some x)).queued x.owner = b.queued x.owner := by
  obtain ⟨owner, exchange, batch, aborted, answered⟩ := x
  obtain rfl : batch = none := hx
  exact ⟨if_pos rfl, rfl⟩

/-- What waited in the owner is what the call carries and what stays. -/
theorem carried_append_queued_issue (x : Call) :
    (b.issue k (some x)).carried k ++ (b.issue k (some x)).queued x.owner = b.queued x.owner := by
  cases hx : x.batch with
  | none =>
    obtain ⟨hcarried, hqueued⟩ := issue_handshake b k hx
    rw [hcarried, hqueued, List.nil_append]
  | some m =>
    obtain ⟨hcarried, hqueued⟩ := issue_drain b k hx
    rw [hcarried, hqueued, List.append_nil]

end

/-! ## The invariant -/

/-- Positions that stay with the calls of socket `s`. If it queues again, a call that has failed keeps none. -/
def Books.placed (b : Books) (w : World) (s : Nat) : List Nat :=
  ((w.callsOf s).filter fun c => !((w.socket s).requeue && failed b.taken c)).flatMap b.carried

/-- Every message that a socket was asked to send is accounted for. -/
structure Ledger (b : Books) (w : World) : Prop where
  whole : ∀ s, b.placed w s ++ b.queued s = List.range (b.sent s).length
  known : ∀ (c : Nat) (x : Call), w.calls[c]? = some x →
    ∀ p ∈ b.carried c, p < (b.sent x.owner).length
  pending : ∀ s, (w.socket s).pending = (b.queued s).map (b.text s)
  batches : ∀ (c : Nat) (x : Call), w.calls[c]? = some x →
    x.batch.getD [] = (b.carried c).map (b.text x.owner)
  /-- Messages are sent on sockets that exist. -/
  ranged : ∀ s text, Task.send s text ∈ w.loop.queue → s < w.sockets.length
  silent : ∀ s, w.sockets.length ≤ s → b.sent s = []

namespace Ledger

variable {b : Books} {v : World}

theorem queued_lt (h : Ledger b w) {p : Nat} (hp : p ∈ b.queued s) : p < (b.sent s).length := by
  rw [← List.mem_range, ← h.whole s]
  exact List.mem_append_right _ hp

/-- Nothing but owners and batches of calls, queues and queued sends matters. -/
theorem congr (h : Ledger b w) (hkeeps : w.Keeps v) (hlength : v.calls.length = w.calls.length)
    (hloop : ∀ s text, Task.send s text ∈ v.loop.queue → Task.send s text ∈ w.loop.queue)
    (hsize : v.sockets.length = w.sockets.length)
    (hpending : ∀ s, (v.socket s).pending = (w.socket s).pending)
    (hrequeue : ∀ s, (v.socket s).requeue = (w.socket s).requeue) : Ledger b v := by
  have hof := fun s => World.callsOf_congr hkeeps hlength s
  exact
    { whole := by simpa only [Books.placed, hof, hrequeue] using h.whole
      known c x hx := by
        obtain ⟨y, hy, hown, -⟩ := hkeeps.back hlength hx
        rw [hown]
        exact h.known c y hy
      pending := by simpa only [hpending] using h.pending
      batches c x hx := by
        obtain ⟨y, hy, hown, -, hbatch⟩ := hkeeps.back hlength hx
        rw [hown, hbatch]
        exact h.batches c y hy
      ranged s text hs := hsize ▸ h.ranged s text (hloop s text hs)
      silent := by simpa only [hsize] using h.silent }

theorem same (h : Ledger b w) (hcalls : v.calls = w.calls) (hloop : v.loop = w.loop)
    (hsize : v.sockets.length = w.sockets.length)
    (hpending : ∀ s, (v.socket s).pending = (w.socket s).pending)
    (hrequeue : ∀ s, (v.socket s).requeue = (w.socket s).requeue) : Ledger b v :=
  h.congr (.of_eq hcalls) (congrArg List.length hcalls) (fun s text hs => by rwa [hloop] at hs)
    hsize hpending hrequeue

theorem quiet (h : Ledger b w) (q : Quiet w v) : Ledger b v :=
  h.same q.calls q.loop q.size q.pending q.requeue

/-! ## Taking a task -/

theorem queued_take (b : Books) (w : World) (hsend : ∀ s, t.sentOn? s = none) (hfail : ∀ c, t.fails c = false)
    (s : Nat) : (b.take w t).queued s = b.queued s := by
  cases t with
  | send r text => exact absurd (hsend r) (by simp [Task.sentOn?])
  | fail c => exact absurd (hfail c) (by simp [Task.fails])
  | _ => rfl

/-- A task that sends nothing and fails nothing. -/
theorem take (h : Ledger b w) (hn : w.loop.next? = some (t, l)) (hsend : ∀ s, t.sentOn? s = none)
    (hfail : ∀ c, t.fails c = false) : Ledger (b.take w t) { w with loop := l } := by
  have hsent : ∀ s, (b.take w t).sent s = b.sent s := by
    intro s
    rw [sent_take, hsend, Option.toList_none, List.append_nil]
  have htext : ∀ s, (b.take w t).text s = b.text s := by
    intro s
    funext p
    rw [Books.text, hsent, Books.text]
  have hqueued := queued_take b w hsend hfail
  have hfailed : failed (b.take w t).taken = failed b.taken := by
    funext c
    exact (failed_append _ _ _).trans (by rw [hfail, Bool.or_false])
  exact
    { whole s := by
        rw [hsent, hqueued, Books.placed, hfailed]
        exact h.whole s
      known c x hx := by
        rw [hsent]
        exact h.known c x hx
      pending s := by
        rw [hqueued, htext]
        exact h.pending s
      batches c x hx := by
        rw [htext]
        exact h.batches c x hx
      ranged := fun s text hs =>
        h.ranged s text (by rw [queue_of_next? hn]; exact List.mem_cons_of_mem _ hs)
      silent := by simpa only [hsent] using h.silent }

/-- A message is sent: it goes behind the queue. -/
theorem take_send (h : Ledger b w) {text : String} (hn : w.loop.next? = some (.send s text, l)) :
    Ledger (b.take w (.send s text))
      (({ w with loop := l } : World).update s fun x => { x with pending := x.pending ++ [text] }) := by
  set b' := b.take w (.send s text)
  set v := ({ w with loop := l } : World).update s fun x => { x with pending := x.pending ++ [text] }
  have hq := queue_of_next? hn
  have hs : s < w.sockets.length := h.ranged s text (by rw [hq]; exact List.mem_cons_self)
  have hsize : v.sockets.length = w.sockets.length := World.length_sockets_update _ s _
  have hsent : ∀ r, b'.sent r = b.sent r ++ if s = r then [text] else [] := by
    intro r
    rw [sent_take]
    simp only [Task.sentOn?]
    split <;> rfl
  have htext : ∀ r p, p < (b.sent r).length → b'.text r p = b.text r p :=
    fun r p hp => text_take b w _ hp
  have hqueued : ∀ r, b'.queued r = if r = s then b.queued r ++ [(b.sent r).length] else b.queued r :=
    fun r => rfl
  have hfailed : ∀ c, failed b'.taken c = failed b.taken c :=
    fun c => (failed_append _ _ _).trans (Bool.or_false _)
  have hrequeue : ∀ r, (v.socket r).requeue = (w.socket r).requeue :=
    World.field_update _ s (fun x => { x with pending := x.pending ++ [text] }) (·.requeue)
      fun _ => rfl
  -- the message gets the next position, at the end of the queue
  have hnext : ∀ r, (List.range (b.sent r).length ++ if r = s then [(b.sent r).length] else []) =
      List.range (b'.sent r).length := by
    intro r
    rw [hsent]
    by_cases hr : r = s
    · rw [if_pos hr, if_pos hr.symm, List.length_append, List.length_singleton, List.range_succ]
    · rw [if_neg hr, if_neg fun e => hr e.symm, List.append_nil, List.append_nil]
  have hqueued' : ∀ r, b'.queued r = b.queued r ++ if r = s then [(b.sent r).length] else [] := by
    intro r
    rw [hqueued]
    split
    · rfl
    · rw [List.append_nil]
  exact
    { whole r := by
        rw [← hnext, ← h.whole r, hqueued', ← List.append_assoc]
        simp only [Books.placed, hrequeue, hfailed]
        rfl
      known c x hx p hp := by
        rw [hsent, List.length_append]
        exact Nat.lt_add_right _ (h.known c x hx p hp)
      pending r := by
        -- positions in the queue are old ones, and those keep their texts
        have hmap : (b.queued r).map (b'.text r) = (b.queued r).map (b.text r) :=
          List.map_congr_left fun p hp => htext r p (h.queued_lt hp)
        rw [World.socket_update, hqueued']
        by_cases hr : r = s
        · have hlast : b'.text r (b.sent r).length = text := by
            rw [Books.text, hsent, if_pos hr.symm, List.getD_append_right _ _ _ _ le_rfl,
              Nat.sub_self]
            rfl
          rw [if_pos ⟨hr, hs⟩, if_pos hr, List.map_append, hmap, ← h.pending r, List.map_singleton,
            hlast, hr]
          rfl
        · rw [if_neg fun hand => hr hand.1, if_neg hr, List.append_nil, hmap]
          exact h.pending r
      batches c x hx := by
        rw [h.batches c x hx]
        exact List.map_congr_left fun p hp => (htext _ p (h.known c x hx p hp)).symm
      ranged r t hr := hsize ▸ h.ranged r t (by rw [hq]; exact List.mem_cons_of_mem _ hr)
      silent r hr := by
        rw [hsize] at hr
        rw [hsent, if_neg (by omega), List.append_nil]
        exact h.silent r hr }

/-- What is carried with success or in flight, on a socket whose call `c` is in flight. -/
theorem acked_afloat_of_flying (hc : completed b.taken c = false) {older : List Nat}
    (hof : w.callsOf s = older ++ [c]) (holder : ∀ d ∈ older, d < c ∧ completed b.taken d = true) :
    b.acked w s = (older.filter (succeeded b.taken)).flatMap b.carried ∧
      b.afloat w s = b.carried c := by
  have hns : succeeded b.taken c = false := by
    rw [completed, Bool.or_eq_false_iff] at hc
    exact hc.1
  have hnil : older.filter (fun d => !completed b.taken d) = [] := by
    rw [List.filter_eq_nil_iff]
    intro d hd
    simp [(holder d hd).2]
  constructor
  · simp [Books.acked, hof, hns]
  · simp [Books.afloat, hof, hc, hnil]

variable (h : Ledger b w)
include h

/-- On a socket that does not queue again all calls keep their positions. -/
theorem shipped (hr : (w.socket s).requeue = false) :
    (w.callsOf s).flatMap b.carried ++ b.queued s = List.range (b.sent s).length := by
  simpa [Books.placed, hr] using h.whole s

/-- On a socket that queues again, positions that were carried with success come first, then those of the call in
flight. -/
theorem kept {R : Nat → Prop} (hf : Flights R b.taken w) (hr : (w.socket s).requeue = true) :
    b.acked w s ++ b.afloat w s ++ b.queued s = List.range (b.sent s).length := by
  -- a call that is completed has failed or has succeeded
  have hdone : ∀ {calls : List Nat}, (∀ c ∈ calls, completed b.taken c = true) →
      calls.filter (fun c => !((w.socket s).requeue && failed b.taken c)) = calls.filter (succeeded b.taken) := by
    intro calls hcalls
    refine List.filter_congr fun c hc => ?_
    have hcompleted := hcalls c hc
    rw [hr, Bool.true_and]
    cases hsucceeded : succeeded b.taken c with
    | true => rw [hf.not_failed_of_succeeded hsucceeded, Bool.not_false]
    | false =>
      rw [completed, hsucceeded, Bool.false_or] at hcompleted
      rw [hcompleted, Bool.not_true]
  rw [← h.whole s, Books.placed]
  congr 1
  by_cases hopen : ∃ c ∈ w.callsOf s, completed b.taken c = false
  · -- only the newest call can be outstanding
    obtain ⟨c, hc, hopen⟩ := hopen
    obtain ⟨x, hx, rfl⟩ := World.mem_callsOf.1 hc
    obtain ⟨older, hof, holder⟩ := hf.callsOf_of_flying hx hopen
    obtain ⟨hacked, hafloat⟩ := acked_afloat_of_flying hopen hof holder
    have hnot := hopen
    rw [completed, Bool.or_eq_false_iff] at hnot
    rw [hacked, hafloat, hof, List.filter_append, hdone fun d hd => (holder d hd).2]
    simp [hnot.2]
  · have hall : ∀ c ∈ w.callsOf s, completed b.taken c = true := by
      intro c hc
      by_contra hnot
      exact hopen ⟨c, hc, Bool.eq_false_iff.2 hnot⟩
    have hnone : (w.callsOf s).filter (fun c => !completed b.taken c) = [] := by
      rw [List.filter_eq_nil_iff]
      intro c hc
      simp [hall c hc]
    rw [hdone hall, Books.acked, Books.afloat, hnone, List.flatMap_nil, List.append_nil]

/-- A call fails: what it carried goes back to the front of the queue, or is dropped. -/
theorem take_fail {R : Nat → Prop} (hf : Flights R b.taken w) (hn : w.loop.next? = some (.fail c, l))
    (hx : w.calls[c]? = some x) (hcalls : v.calls = w.calls) (hloop : v.loop = l)
    (hsize : v.sockets.length = w.sockets.length)
    (hrequeue : ∀ s, (v.socket s).requeue = (w.socket s).requeue)
    (hpending : ∀ s, (v.socket s).pending =
      if s = x.owner ∧ (w.socket s).requeue = true then x.batch.getD [] ++ (w.socket s).pending
      else (w.socket s).pending) :
    Ledger (b.take w (.fail c)) v := by
  obtain ⟨hc, y, hy, -, -⟩ := hf.call_of_completion hn rfl
  set b' := b.take w (.fail c) with hb
  have hsent : ∀ s, b'.sent s = b.sent s := by
    intro s
    rw [sent_take]
    exact List.append_nil _
  have htext : ∀ s, b'.text s = b.text s := by
    intro s
    funext p
    rw [Books.text, hsent, Books.text]
  have hof : ∀ s, v.callsOf s = w.callsOf s := by
    intro s
    rw [World.callsOf, World.callsOf, hcalls]
  have hqueued : ∀ s, b'.queued s =
      if s = x.owner ∧ (w.socket s).requeue = true then b.carried c ++ b.queued s
      else b.queued s := by
    intro s
    show (if (w.calls[c]?.map (·.owner)) = some s ∧ (w.socket s).requeue = true then
      b.carried c ++ b.queued s else b.queued s) = _
    simp only [hx, Option.map_some, Option.some.injEq, eq_comm]
  have hfailed : ∀ d, failed b'.taken d = (failed b.taken d || c == d) := fun d => failed_append _ _ _
  exact
    { whole s := by
        rw [hsent, ← h.whole s, hqueued, Books.placed, Books.placed, hof, hrequeue]
        split
        next hs =>
          -- the newest call has not failed before: its messages stand before the queue again
          obtain ⟨rfl, hr⟩ := hs
          obtain ⟨older, hcs, holder⟩ := hf.callsOf_of_flying hx hc
          have hold : ∀ d ∈ older, failed b'.taken d = failed b.taken d := by
            intro d hd
            rw [hfailed, beq_eq_false_iff_ne.2 (holder d hd).1.ne', Bool.or_false]
          rw [completed, Bool.or_eq_false_iff] at hc
          have hdone : failed b'.taken c = true := by rw [hfailed, beq_self_eq_true, Bool.or_true]
          rw [hcs, hr, List.filter_append, List.filter_congr fun d hd => by rw [hold d hd]]
          simp [hdone, hc.2]
          rfl
        next hs =>
          -- the call is not one of the socket, or its place stays with it
          congr 1
          refine congrArg (List.flatMap b.carried) (List.filter_congr fun d hd => ?_)
          cases hr : (w.socket s).requeue with
          | false => rfl
          | true =>
            have hne : c ≠ d := by
              rintro rfl
              obtain ⟨z, hz, hown⟩ := World.mem_callsOf.1 hd
              cases hx.symm.trans hz
              exact hs ⟨hown.symm, hr⟩
            rw [hfailed, beq_eq_false_iff_ne.2 hne, Bool.or_false]
      known d y hy := by
        rw [hcalls] at hy
        rw [hsent]
        exact h.known d y hy
      pending s := by
        rw [hpending, hqueued, htext]
        split
        next hs =>
          rw [List.map_append, ← h.pending s, h.batches c x hx, hs.1]
        next => exact h.pending s
      batches d y hy := by
        rw [hcalls] at hy
        rw [htext]
        exact h.batches d y hy
      ranged s text hs := by
        rw [hloop] at hs
        exact hsize ▸ h.ranged s text (by rw [queue_of_next? hn]; exact List.mem_cons_of_mem _ hs)
      silent := by simpa only [hsize, hsent] using h.silent }

/-! ## Issuing a call -/

/-- Books for a step that issues nothing. -/
theorem issue_none : Ledger (b.issue w.calls.length none) w := by
  set b' := b.issue w.calls.length none
  have hcarried : ∀ (c : Nat) (x : Call), w.calls[c]? = some x → b'.carried c = b.carried c := by
    intro c x hx
    exact carried_issue_of_ne b (List.getElem?_eq_some_iff.1 hx).1.ne none
  have hof : ∀ s, ∀ c ∈ w.callsOf s, b'.carried c = b.carried c := by
    intro s c hc
    obtain ⟨x, hx, -⟩ := World.mem_callsOf.1 hc
    exact hcarried c x hx
  exact
    { whole s := by
        rw [Books.placed, List.flatMap_congr fun c hc => hof s c (List.mem_of_mem_filter hc)]
        exact h.whole s
      known c x hx := by
        rw [hcarried c x hx]
        exact h.known c x hx
      __ := h
      batches c x hx := by
        rw [hcarried c x hx]
        exact h.batches c x hx
      silent := h.silent }

/-- A call is issued; a drain takes along what waits in its socket. -/
theorem issue (hcalls : v.calls = w.calls ++ [x])
    (hopen : completed b.taken w.calls.length = false) (hloop : v.loop = w.loop)
    (hsize : v.sockets.length = w.sockets.length)
    (hrequeue : ∀ s, (v.socket s).requeue = (w.socket s).requeue)
    (hbatch : ∀ m, x.batch = some m → m = (w.socket x.owner).pending)
    (hpending : ∀ s, (v.socket s).pending =
      if x.batch.isSome ∧ s = x.owner then [] else (w.socket s).pending) :
    Ledger (b.issue w.calls.length (some x)) v := by
  set k := w.calls.length with hk
  set b' := b.issue k (some x) with hb
  have htaken : b'.taken = b.taken := taken_issue b k (some x)
  have hold : ∀ c, c ≠ k → b'.carried c = b.carried c :=
    fun c hc => carried_issue_of_ne b hc (some x)
  have hother : ∀ s, s ≠ x.owner → b'.queued s = b.queued s := fun s hs => queued_issue_of_ne b k hs
  have hsplit : b'.carried k ++ b'.queued x.owner = b.queued x.owner :=
    carried_append_queued_issue b k x
  have hsent : ∀ s, b'.sent s = b.sent s := sent_issue b k (some x)
  have htext : ∀ s, b'.text s = b.text s := text_issue b k (some x)
  have hof : ∀ s, v.callsOf s = w.callsOf s ++ if x.owner = s then [k] else [] :=
    World.callsOf_append hcalls
  have hcs : ∀ s, ∀ c ∈ w.callsOf s, b'.carried c = b.carried c := by
    intro s c hc
    obtain ⟨y, hy, -⟩ := World.mem_callsOf.1 hc
    exact hold c (List.getElem?_eq_some_iff.1 hy).1.ne
  have hget : ∀ (c : Nat) (y : Call), v.calls[c]? = some y →
      w.calls[c]? = some y ∧ c ≠ k ∨ c = k ∧ y = x := by
    intro c y hy
    rcases World.call_of_append hcalls hy with hy | hnew
    · exact Or.inl ⟨hy, (List.getElem?_eq_some_iff.1 hy).1.ne⟩
    · exact Or.inr hnew
  have hplaced : ∀ s, b'.placed v s = b.placed w s ++ if x.owner = s then b'.carried k else [] := by
    intro s
    rw [completed, Bool.or_eq_false_iff] at hopen
    rw [Books.placed, hof, htaken, hrequeue, List.filter_append, List.flatMap_append,
      List.flatMap_congr fun c hc => hcs s c (List.mem_of_mem_filter hc)]
    congr 1
    by_cases hown : x.owner = s
    · simp [hown, hopen.2]
    · simp [hown]
  exact
    { whole s := by
        rw [hsent, ← h.whole s, hplaced]
        by_cases hown : x.owner = s
        · subst hown
          -- the call takes its messages from the front of the queue
          rw [if_pos rfl, List.append_assoc, hsplit]
        · rw [if_neg hown, List.append_nil, hother s (Ne.symm hown)]
      known c y hy p hp := by
        rw [hsent]
        rcases hget c y hy with ⟨hy, hne⟩ | ⟨rfl, rfl⟩
        · rw [hold c hne] at hp
          exact h.known c y hy p hp
        · exact h.queued_lt (by rw [← hsplit]; exact List.mem_append_left _ hp)
      pending s := by
        rw [hpending, htext]
        by_cases hown : s = x.owner
        · subst hown
          cases hx : x.batch with
          | none => rw [if_neg (by simp), h.pending, (issue_handshake b k hx).2]
          | some m =>
            rw [if_pos ⟨rfl, rfl⟩, (issue_drain b k hx).2]
            rfl
        · rw [if_neg fun hand => hown hand.2, hother s hown]
          exact h.pending s
      batches c y hy := by
        rw [htext]
        rcases hget c y hy with ⟨hy, hne⟩ | ⟨rfl, rfl⟩
        · rw [hold c hne]
          exact h.batches c y hy
        · cases hx : y.batch with
          | none =>
            rw [(issue_handshake b k hx).1]
            rfl
          | some m => rw [(issue_drain b k hx).1, Option.getD_some, hbatch m hx, h.pending]
      ranged s text hs := by
        rw [hloop] at hs
        exact hsize ▸ h.ranged s text hs
      silent := by simpa only [hsize, hsent] using h.silent }

/-! ## The loop -/

/-- A task is posted; a send is one on a socket that exists. -/
theorem post (ht : ∀ s text, t = .send s text → s < w.sockets.length) : Ledger b (w.post t).1 := by
  refine { h with ranged := fun s text hs => ?_ }
  change Task.send s text ∈ (w.loop.post t).1.queue at hs
  unfold Loop.post at hs
  split at hs
  · exact h.ranged s text hs
  · rcases List.mem_append.1 hs with hs | hs
    · exact h.ranged s text hs
    · exact ht s text (List.mem_singleton.1 hs).symm

theorem closeLoop : Ledger b { w with loop := w.loop.close } :=
  { h with ranged s text hs := by cases hs }

/-- The end of a delivery moves no message. -/
theorem release (s : Nat) : Ledger b (w.release s) :=
  h.congr (w.keeps_release s) (w.length_calls_release s)
    (fun r text hr => by rwa [w.loop_release] at hr) (w.length_sockets_release s)
    (w.field_release s (·.pending) fun _ _ => rfl) (w.field_release s (·.requeue) fun _ _ => rfl)

/-- The completion of a call is posted. -/
theorem answer (c : Nat) (ht : ∀ s text, t ≠ .send s text) : Ledger b (w.answer c t).1 := by
  have hflag : Ledger b { w with calls := w.calls.modify c fun x => { x with answered := true } } :=
    h.congr (w.keeps_answer c t) (List.length_modify _ _ _) (fun _ _ => id) rfl (fun _ => rfl)
      fun _ => rfl
  exact hflag.post fun s text hs => absurd hs (ht s text)

/-- A socket comes into being with an empty queue. -/
theorem addSocket {x : Socket} (hempty : x.pending = []) : Ledger b (w.addSocket x) := by
  have hold : ∀ s, s ≠ w.sockets.length → (w.addSocket x).socket s = w.socket s := by
    intro s hs
    rw [World.socket_addSocket, if_neg hs]
  have hsent := h.silent w.sockets.length le_rfl
  -- nothing was sent on the new socket, so that no call carries anything of it
  have hnone := h.shipped (s := w.sockets.length) (by rw [World.socket_of_le le_rfl])
  rw [hsent, List.length_nil, List.range_zero, List.append_eq_nil_iff, List.flatMap_eq_nil_iff] at hnone
  obtain ⟨hcarried, hqueued⟩ := hnone
  exact
    { whole s := by
        by_cases hnew : s = w.sockets.length
        · subst hnew
          have hplaced : b.placed (w.addSocket x) w.sockets.length = [] :=
            List.flatMap_eq_nil_iff.2 fun c hc => hcarried c (List.mem_of_mem_filter hc)
          rw [hplaced, hqueued, hsent]
          rfl
        · rw [Books.placed, hold s hnew]
          exact h.whole s
      __ := h
      pending s := by
        by_cases hnew : s = w.sockets.length
        · rw [World.socket_addSocket, if_pos hnew, hempty, hnew, hqueued]
          rfl
        · rw [hold s hnew]
          exact h.pending s
      ranged s text hs := Nat.lt_of_lt_of_le (h.ranged s text hs) (by simp [World.addSocket])
      silent s hs := h.silent s (Nat.le_trans (by simp [World.addSocket]) hs) }

end Ledger

end PollSocket.Socket
