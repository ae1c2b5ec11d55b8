import PollSocket.Proofs.Poll.Takes
import PollSocket.Proofs.Server.Deeds

set_option autoImplicit false

/-!
# What a step of a thread does to the rest of a server

`Effect` says it once for all duties: other threads stay as they are, connections keep their ids, and
the queue of every connection changes by what is accepted and taken only (`World.Next.effect`). Hence
what a connection has accepted is what was taken from it, followed by its queue, after every run
(`conserved_step`).
-/

namespace PollSocket.Poll.Queue

/-- A queue refuses a message or puts it behind the others. -/
theorem write_cases (q : Queue) (message : String) :
    (∃ f, q.write message = (q, .error f)) ∨
      q.write message = ({ q with pending := q.pending ++ [message], token := true }, .ok ()) := by
  unfold write
  split
  · exact Or.inl ⟨_, rfl⟩
  · split
    · exact Or.inl ⟨_, rfl⟩
    · exact Or.inr rfl

/-- What a take may do to a queue: what it does not give its caller stays in the queue, it may note the time, and
it waits for no other deadline. -/
structure Brings (q : Queue) (now deadline : Int) (r : Queue × Take) : Prop where
  pending : (Server.result? r.2).toList.flatten ++ r.1.pending = q.pending
  closed : r.1.closed = q.closed
  patience : r.1.patience = q.patience
  lastActivity : r.1.lastActivity = q.lastActivity ∨ r.1.lastActivity = now
  deadline : ∀ deadline', r.2 = .waiting deadline' → deadline' = deadline

theorem startTake_brings (q : Queue) (now : Int) (cancelled : Bool) (wait : Int) :
    q.Brings now (now + wait) (q.startTake now cancelled wait) := by
  unfold startTake touch takePending
  dsimp only
  split
  · exact ⟨rfl, rfl, rfl, Or.inr rfl, by simp⟩
  · split
    next hempty =>
      rw [Bool.and_eq_true, List.isEmpty_iff] at hempty
      exact ⟨hempty.1.symm, rfl, rfl, Or.inr rfl, by simp⟩
    next => exact ⟨by simp [Server.result?], rfl, rfl, Or.inr rfl, by simp⟩

theorem resumeTake_brings (q : Queue) (now : Int) (cancelled : Bool) (deadline : Int) (preferred : Wake) :
    q.Brings now deadline (q.resumeTake now cancelled deadline preferred) := by
  unfold resumeTake touch takePending
  split
  · exact ⟨rfl, rfl, rfl, Or.inl rfl, by simp⟩
  · dsimp only
    split
    next hempty => exact ⟨(List.isEmpty_iff.1 hempty).symm, rfl, rfl, Or.inl rfl, by simp⟩
    next => exact ⟨by simp [Server.result?], rfl, rfl, Or.inr rfl, by simp⟩
  · exact ⟨rfl, rfl, rfl, Or.inr rfl, by simp⟩
  · exact ⟨by simp [Server.result?], rfl, rfl, Or.inr rfl, by simp⟩

end PollSocket.Poll.Queue

namespace PollSocket.Server

variable {y : Conn} {d : Duty} {pushed : List Duty} {c t : Nat} {message : Option (Nat × String)}
  {call : Option Note} {x : Thread} {v w : World}

section Entries

variable {α : Type}

@[simp]
theorem entriesOf_nil (k : Nat) : entriesOf k ([] : List (Nat × α)) = [] := rfl

@[simp]
theorem entriesOf_append (k : Nat) (xs ys : List (Nat × α)) :
    entriesOf k (xs ++ ys) = entriesOf k xs ++ entriesOf k ys :=
  List.filterMap_append

theorem entriesOf_singleton (k : Nat) (e : Nat × α) :
    entriesOf k [e] = if e.1 = k then [e.2] else [] := by
  by_cases h : e.1 = k <;> simp [entriesOf, h]

theorem mem_entriesOf {k : Nat} {a : α} {xs : List (Nat × α)} :
    a ∈ entriesOf k xs ↔ (k, a) ∈ xs := by
  simp only [entriesOf, List.mem_filterMap]
  constructor
  · rintro ⟨⟨j, b⟩, hmem, h⟩
    split at h <;> cases h
    next hj =>
      cases hj
      exact hmem
  · intro hmem
    exact ⟨(k, a), hmem, by simp⟩

theorem entriesOf_map (k c : Nat) (xs : List α) :
    entriesOf k (xs.map (Prod.mk c)) = if k = c then xs else [] := by
  by_cases h : k = c
  · simp [entriesOf, h]
  · have h' : ¬ c = k := fun heq => h heq.symm
    simp [entriesOf, h, h']

theorem entriesOf_sublist (k : Nat) (xs : List (Nat × α)) : (entriesOf k xs).Sublist (xs.map Prod.snd) := by
  induction xs with
  | nil => exact List.Sublist.refl []
  | cons e more ih =>
    rw [← List.singleton_append, entriesOf_append, entriesOf_singleton, List.map_append]
    apply List.Sublist.append _ ih
    split
    · exact List.Sublist.refl _
    · exact List.nil_sublist _

end Entries

/-- What is not at the end was there before. -/
theorem getElem?_concat_of_ne {α : Type} {l : List α} {a : α} {i : Nat} (h : i ≠ l.length) :
    (l ++ [a])[i]? = l[i]? := by
  grind

/-- A table without an entry. -/
theorem lookup_dropEntry (id key : String) (table : List (String × Nat)) :
    (dropEntry id table).lookup key = if key = id then none else table.lookup key := by
  induction table with
  | nil => simp [dropEntry]
  | cons e more ih =>
    obtain ⟨k, d⟩ := e
    by_cases hk : k = id
    · have hdrop : dropEntry id ((k, d) :: more) = dropEntry id more := by simp [dropEntry, hk]
      rw [hdrop, ih, hk]
      by_cases hkey : key = id <;> simp [List.lookup_cons, beq_eq_decide, hkey]
    · have hdrop : dropEntry id ((k, d) :: more) = (k, d) :: dropEntry id more := by
        simp [dropEntry, hk]
      rw [hdrop, List.lookup_cons, List.lookup_cons, ih]
      by_cases hkey : key = k
      · simp [hkey, hk]
      · simp [beq_eq_decide, hkey]

/-- A table with an entry put into it. -/
theorem lookup_putEntry (id key : String) (c : Nat) (table : List (String × Nat)) :
    (putEntry id c table).lookup key = if key = id then some c else table.lookup key := by
  induction table with
  | nil => by_cases hkey : key = id <;> simp [putEntry, List.lookup_cons, hkey, beq_eq_decide]
  | cons e more ih =>
    obtain ⟨k, d⟩ := e
    rw [putEntry]
    by_cases hk : k = id
    · by_cases hkey : key = id <;> simp_all [List.lookup_cons, beq_eq_decide]
    · by_cases hkey : key = k <;> simp_all [List.lookup_cons, beq_eq_decide]

/-- A new id stands for no handshake: it has a hyphen. -/
theorem Ids.draw_named (ids : Ids) : ids.draw.1 ≠ "" ∧ ids.draw.1 ≠ nullSession := by
  have hhyphen : ∀ bytes, '-' ∈ (idOfBytes bytes).toList := by
    intro bytes
    unfold idOfBytes
    simp
  obtain ⟨bytes, hbytes⟩ : ∃ bytes, ids.draw.1 = idOfBytes bytes := by
    unfold draw
    split
    · exact ⟨_, rfl⟩
    · exact ⟨_, rfl⟩
  have hmem := hhyphen bytes
  rw [← hbytes] at hmem
  constructor
  · intro hid
    rw [hid] at hmem
    exact absurd hmem (by decide)
  · intro hid
    rw [hid] at hmem
    exact absurd hmem (by decide)

namespace World

/-- Id of a connection. -/
def idOf? (w : World) (c : Nat) : Option String := (w.conn? c).map (·.id)

/-- Messages that wait in a connection. -/
def pendingOf (w : World) (c : Nat) : List String := ((w.conn? c).map (·.queue.pending)).getD []

theorem idOf?_of_conns_eq (h : v.conns = w.conns) (c : Nat) : v.idOf? c = w.idOf? c := by
  rw [idOf?, idOf?, conn?, conn?, h]

theorem pendingOf_of_conns_eq (h : v.conns = w.conns) (c : Nat) : v.pendingOf c = w.pendingOf c := by
  rw [pendingOf, pendingOf, conn?, conn?, h]

theorem conn?_updateConn (w : World) (c d : Nat) (f : Conn → Conn) :
    (w.updateConn c f).conn? d = if d = c then (w.conn? d).map f else w.conn? d := by
  show (w.conns.modify c f)[d]? = _
  rw [conn?]
  by_cases hd : d = c
  · simp [hd]
  · have hd' : ¬ c = d := fun h => hd h.symm
    simp [hd, hd']

theorem threads_updateThread (w : World) (t u : Nat) (f : Thread → Thread) :
    (w.updateThread t f).threads[u]? = if u = t then w.threads[u]?.map f else w.threads[u]? := by
  show (w.threads.modify t f)[u]? = _
  by_cases hu : u = t
  · simp [hu]
  · have hu' : ¬ t = u := fun h => hu h.symm
    simp [hu, hu']

theorem threads_updateThread_self (hx : w.threads[t]? = some x) (f : Thread → Thread) :
    (w.updateThread t f).threads[t]? = some (f x) := by
  rw [threads_updateThread, if_pos rfl, hx]
  rfl

/-- Sessions are those of connections with their id, and no id stands for a handshake. -/
structure Tabled (w : World) : Prop where
  sessions : ∀ id c, w.sessions.lookup id = some c → w.idOf? c = some id
  named : ∀ c id, w.idOf? c = some id → id ≠ "" ∧ id ≠ nullSession

theorem Tabled.congr (h : w.Tabled) (hids : ∀ c, v.idOf? c = w.idOf? c)
    (hsessions : ∀ id c, v.sessions.lookup id = some c → w.sessions.lookup id = some c) : v.Tabled where
  sessions id c hc := by
    rw [hids]
    exact h.sessions id c (hsessions id c hc)
  named c id hc := by
    rw [hids] at hc
    exact h.named c id hc

/-- What a step of thread `t` does to the other threads and to the connections, in which it queues
`sent` and from which it takes `taken`. -/
structure Effect (t : Nat) (sent : List (Nat × String)) (taken : List (Nat × List String))
    (w v : World) : Prop where
  others : ∀ u, u ≠ t → v.threads[u]? = w.threads[u]?
  size : v.threads.length = w.threads.length
  ids : ∀ c id, w.idOf? c = some id → v.idOf? c = some id
  pending : ∀ c, (entriesOf c taken).flatten ++ v.pendingOf c = w.pendingOf c ++ entriesOf c sent
  tabled : w.Tabled → v.Tabled

namespace Effect

variable {sent : List (Nat × String)} {taken : List (Nat × List String)}

/-- Only thread `t` changes, and sessions may be dropped. -/
theorem of_conns_eq (hothers : ∀ u, u ≠ t → v.threads[u]? = w.threads[u]?)
    (hsize : v.threads.length = w.threads.length) (hconns : v.conns = w.conns)
    (hsessions : ∀ id c, v.sessions.lookup id = some c → w.sessions.lookup id = some c) :
    Effect t [] [] w v where
  others := hothers
  size := hsize
  ids c id hc := by rwa [idOf?_of_conns_eq hconns]
  pending c := by simp [pendingOf_of_conns_eq hconns]
  tabled h := h.congr (idOf?_of_conns_eq hconns) hsessions

theorem of_same (hthreads : v.threads = w.threads) (hconns : v.conns = w.conns)
    (hsessions : v.sessions = w.sessions) : Effect t [] [] w v :=
  of_conns_eq (fun u _ => by rw [hthreads]) (by rw [hthreads]) hconns fun _ _ hc => by
    rwa [hsessions] at hc

theorem refl (t : Nat) (w : World) : Effect t [] [] w w := of_same rfl rfl rfl

theorem trans {u : World} {sent' : List (Nat × String)} {taken' : List (Nat × List String)}
    (h : Effect t sent taken w v) (k : Effect t sent' taken' v u) :
    Effect t (sent ++ sent') (taken ++ taken') w u where
  others s hs := (k.others s hs).trans (h.others s hs)
  size := k.size.trans h.size
  ids c id hc := k.ids c id (h.ids c id hc)
  pending c := by
    rw [entriesOf_append, entriesOf_append, List.flatten_append, List.append_assoc, k.pending,
      ← List.append_assoc, h.pending, List.append_assoc]
  tabled hw := k.tabled (h.tabled hw)

/-- Nothing is queued or taken in the second part. -/
theorem trans_quiet {u : World} (h : Effect t sent taken w v) (k : Effect t [] [] v u) :
    Effect t sent taken w u := by
  have htrans := h.trans k
  rwa [List.append_nil, List.append_nil] at htrans

variable (t : Nat)

theorem note (w : World) (n : Note) : Effect t [] [] w (w.note n) := of_same rfl rfl rfl

theorem updateThread (w : World) (f : Thread → Thread) : Effect t [] [] w (w.updateThread t f) := by
  refine of_conns_eq (fun u hu => ?_) (List.length_modify _ _ _) rfl fun _ _ hc => hc
  rw [threads_updateThread, if_neg hu]

theorem push (w : World) (duties : List Duty) : Effect t [] [] w (w.push t duties) :=
  updateThread t w _

/-- A connection changes, but not its id. -/
theorem updateConn {f : Conn → Conn} (hy : w.conn? c = some y) (hid : (f y).id = y.id)
    (texts : List String) (batches : List (List String))
    (hpending : batches.flatten ++ (f y).queue.pending = y.queue.pending ++ texts) :
    Effect t (texts.map (Prod.mk c)) (batches.map (Prod.mk c)) w (w.updateConn c f) := by
  have hids : ∀ d, (w.updateConn c f).idOf? d = w.idOf? d := by
    intro d
    rw [idOf?, idOf?, conn?_updateConn]
    split
    next hd => simp [hd, hy, hid]
    next => rfl
  exact
    { others _ _ := rfl
      size := rfl
      ids d id hd := by rwa [hids]
      pending d := by
        rw [pendingOf, pendingOf, conn?_updateConn, entriesOf_map, entriesOf_map]
        by_cases hd : d = c
        · subst hd
          simpa [hy] using hpending
        · simp [hd]
      tabled h := h.congr hids fun _ _ hc => hc }

/-- A connection changes, but neither its id nor its queued messages. -/
theorem updateConn_kept {f : Conn → Conn} (hy : w.conn? c = some y) (hid : (f y).id = y.id)
    (hpending : (f y).queue.pending = y.queue.pending) : Effect t [] [] w (w.updateConn c f) := by
  have hkept : ([] : List (List String)).flatten ++ (f y).queue.pending = y.queue.pending ++ [] := by
    rw [hpending, List.append_nil]
    rfl
  exact updateConn t hy hid [] [] hkept

theorem updateConn_none (f : Conn → Conn) (hy : w.conn? c = none) : Effect t [] [] w (w.updateConn c f) := by
  have hsame : w.updateConn c f = w := by
    rw [World.updateConn, List.modify_eq_self (List.getElem?_eq_none_iff.1 hy)]
  rw [hsame]
  exact refl t w

/-- A thread that a handler has thrown out of lets go of all it holds. -/
theorem throw (w : World) (value : Thrown) : Effect t [] [] w (w.throw t value) := by
  have hconn : ∀ c, (w.throw t value).conn? c = (w.conn? c).map fun x =>
      if x.holder = some t then { x with holder := none } else x := fun c => List.getElem?_map ..
  have hids : ∀ c, (w.throw t value).idOf? c = w.idOf? c := by
    intro c
    rw [idOf?, hconn, Option.map_map]
    congr 1
    funext x
    dsimp only [Function.comp]
    split <;> rfl
  exact
    { others := (updateThread t w _).others
      size := (updateThread t w _).size
      ids c id hc := by rwa [hids]
      pending c := by
        have hkept : (w.throw t value).pendingOf c = w.pendingOf c := by
          rw [pendingOf, hconn, Option.map_map]
          congr 2
          funext x
          dsimp only [Function.comp]
          split <;> rfl
        simp [hkept]
      tabled h := h.congr hids fun _ _ hc => hc }

end Effect

/-! ## Side duties -/

end World

/-- The duty neither serves a request nor tells of a message. -/
def Duty.side : Duty → Bool
  | .trigger event _ _ => event != "message"
  | .react _ _ _ _ => true
  | .act _ _ _ _ => true
  | .send _ _ => true
  | .broadcast _ _ => true
  | .close _ => true
  | .shutdown _ => true
  | .expire _ => true
  | _ => false

/-- The duty tells handlers of an event. -/
def Duty.isTrigger : Duty → Bool
  | .trigger _ _ _ => true
  | _ => false

/-- A thread after it has planned side duties. -/
structure Thread.Pushed (x y : Thread) : Prop where
  agenda : ∃ duties, (∀ d ∈ duties, d.side = true) ∧ y.agenda = duties ++ x.agenda
  answer : y.answer = x.answer
  unwritable : y.unwritable = x.unwritable
  thrown : y.thrown = x.thrown

theorem Thread.Pushed.refl (x : Thread) : x.Pushed x := ⟨⟨[], by simp, rfl⟩, rfl, rfl, rfl⟩

namespace World

/-- What a connection accepts of a message for it. -/
def acceptance (w : World) (c : Nat) (text : String) : List (Nat × String) :=
  if w.accepts c text then [(c, text)] else []

theorem filter_accepts (w : World) (c : Nat) (text : String) :
    ((some (c, text)).filter fun s => w.accepts s.1 s.2).toList = w.acceptance c text := by
  rw [Option.filter_some, acceptance]
  split <;> rfl

/-- What a side duty of thread `t` does, in which `sent` is accepted. -/
structure Aside (t : Nat) (sent : List (Nat × String)) (w v : World) : Prop
    extends Effect t sent [] w v where
  self : ∀ x, w.threads[t]? = some x → ∃ y, v.threads[t]? = some y ∧ x.Pushed y

theorem threads_sendTo (w : World) (c : Nat) (text : String) :
    (w.sendTo c text).1.threads = w.threads := by
  unfold sendTo
  split
  · rfl
  · split <;> rfl

theorem sendTo_of_connected (hy : w.conn? c = some y) (hc : y.connected = true) (text : String) :
    w.sendTo c text = (w.updateConn c fun x => { x with queue := (y.queue.write text).1 },
      (y.queue.write text).2) := by
  simp only [sendTo, hy, if_pos hc]

/-- A message is queued exactly if the connection accepts it. -/
theorem Effect.sendTo (t : Nat) (w : World) (c : Nat) (text : String) :
    Effect t (w.acceptance c text) [] w (w.sendTo c text).1 := by
  have hrefused : ∀ {v : World} {f : Failure}, w.sendTo c text = (v, .error f) →
      Effect t [] [] w v → Effect t (w.acceptance c text) [] w (w.sendTo c text).1 := by
    intro v f hsend heffect
    have hnone : w.acceptance c text = [] := by simp [acceptance, accepts, hsend]
    rw [hnone, hsend]
    exact heffect
  cases hy : w.conn? c with
  | none => exact hrefused (f := .connectionClosed) (by simp only [World.sendTo, hy]) (.refl t w)
  | some y =>
    by_cases hconnected : y.connected = true
    · have hsend := sendTo_of_connected hy hconnected text
      rcases y.queue.write_cases text with ⟨f, hwrite⟩ | hwrite
      · rw [hwrite] at hsend
        refine hrefused hsend ?_
        exact updateConn_kept t hy rfl rfl
      · have hone : w.acceptance c text = [text].map (Prod.mk c) := by
          simp [acceptance, accepts, hsend, hwrite]
        rw [hone, hsend, hwrite]
        exact .updateConn t hy rfl [text] [] rfl
    · have hsend : w.sendTo c text =
          (w.trace ("Conn " ++ y.id ++ ": attempted to send to closed conn"),
            .error .connectionClosed) := by
        simp only [World.sendTo, hy, if_neg hconnected]
      exact hrefused hsend (.note t w _)

theorem Written.threads (h : w.Written message call v) : v.threads = w.threads := by
  induction h with
  | refl | called => rfl
  | sent c text => exact w.threads_sendTo c text
  | note _ _ ih => exact ih

theorem Written.thread (h : w.Written message call v) {t : Nat} {x : Thread} (hx : w.threads[t]? = some x) :
    v.threads[t]? = some x := by rw [h.threads, hx]

theorem Written.effect (h : w.Written message call v) (t : Nat) :
    Effect t (message.filter fun s => w.accepts s.1 s.2).toList [] w v := by
  induction h with
  | refl => exact .refl t w
  | sent c text =>
    rw [filter_accepts]
    exact .sendTo t w c text
  | called n => exact .note t w n
  | note _ _ ih => exact ih.trans_quiet (.note t _ _)

end World

theorem Duty.Plan.side (h : d.Plan w x pushed) (hd : d.side = true) : ∀ e ∈ pushed, e.side = true := by
  cases h with
  | reacts =>
    intro e he
    obtain ⟨h, -, rfl⟩ := List.mem_map.1 he
    rfl
  | tells | admits => cases hd
  | _ => simp [Duty.side]

/-- Only a take and a wait for one take something. -/
theorem Duty.takes?_of_slight (h : d.slight w = true) (x : Thread) : w.takes? x d = none := by
  cases d with
  | take c | wait c =>
    rw [Duty.slight, Option.isNone_iff_eq_none] at h
    rw [World.takes?, h, Option.bind_none]
  | _ => rfl

theorem Duty.Plan.takes? (h : d.Plan w x pushed) : w.takes? x d = none := by
  cases h <;> rfl

namespace World

namespace Effect

/-- A connection is opened under a new id. -/
theorem opened (t : Nat) {x : Conn} (hthreads : v.threads = w.threads) (hconns : v.conns = w.conns ++ [x])
    (hsessions : v.sessions = putEntry x.id w.conns.length w.sessions) (hpending : x.queue.pending = [])
    (hid : x.id ≠ "" ∧ x.id ≠ nullSession) : Effect t [] [] w v := by
  have hold : ∀ c, c ≠ w.conns.length → v.conn? c = w.conn? c := by
    intro c hc
    rw [conn?, hconns, getElem?_concat_of_ne hc]
    rfl
  have hnew : v.conn? w.conns.length = some x := by
    rw [conn?, hconns, List.getElem?_concat_length]
  have hids : ∀ c id, w.idOf? c = some id → v.idOf? c = some id := by
    intro c id hc
    obtain ⟨y, hy, -⟩ := Option.map_eq_some_iff.1 hc
    rw [idOf?, hold c (List.getElem?_eq_some_iff.1 hy).1.ne]
    exact hc
  exact
    { others u _ := by rw [hthreads]
      size := by rw [hthreads]
      ids := hids
      pending c := by
        rw [entriesOf_nil, entriesOf_nil, List.append_nil]
        show v.pendingOf c = w.pendingOf c
        -- nothing waits in a connection that is new, as in one that does not exist
        by_cases hc : c = w.conns.length
        · have hmissing : w.conn? c = none := List.getElem?_eq_none hc.ge
          rw [pendingOf, pendingOf, hmissing, hc, hnew]
          exact hpending
        · rw [pendingOf, hold c hc, pendingOf]
      tabled := fun h =>
        { sessions id c hc := by
            rw [hsessions, lookup_putEntry] at hc
            split at hc
            next heq =>
              cases hc
              rw [idOf?, hnew, heq]
              rfl
            next => exact hids c id (h.sessions id c hc)
          named c id hc := by
            by_cases heq : c = w.conns.length
            · rw [idOf?, heq, hnew] at hc
              cases hc
              exact hid
            · rw [idOf?, hold c heq] at hc
              exact h.named c id hc } }

/-- A connection is closed and leaves the tables. -/
theorem closed (t : Nat) (hy : w.conn? c = some y)
    (hthreads : v.threads = w.threads)
    (hconns : v.conns = w.conns.modify c fun z => { z with connected := false, queue := z.queue.close })
    (hsessions : v.sessions = dropEntry y.id w.sessions) : Effect t [] [] w v := by
  have hshut : Effect t [] [] w (w.updateConn c fun z => { z with connected := false, queue := z.queue.close }) :=
    updateConn_kept t hy rfl rfl
  refine hshut.trans_quiet (of_conns_eq (fun u _ => by rw [hthreads]; rfl) (by rw [hthreads]; rfl) hconns ?_)
  intro id d hd
  rw [hsessions, lookup_dropEntry] at hd
  split at hd
  · cases hd
  · exact hd

/-- What a take brings has left the queue. -/
theorem taken (t : Nat) (w : World) (hy : w.conn? c = some y) {r : Poll.Queue × Poll.Take}
    (hr : (result? r.2).toList.flatten ++ r.1.pending = y.queue.pending) :
    Effect t [] ((result? r.2).map (Prod.mk c)).toList w (w.updateConn c fun x => { x with queue := r.1 }) := by
  rw [Option.toList_map]
  exact .updateConn t hy rfl [] (result? r.2).toList (by rw [List.append_nil]; exact hr)

end Effect

end World

namespace Duty.Takes

variable {q : Poll.Queue} {received : Nat} {r : Poll.Queue × Poll.Take}

theorem takes? (h : d.Takes w x y.queue c received r) (hy : w.conn? c = some y) :
    w.takes? x d = (result? r.2).map (Prod.mk c) := by
  cases h <;> simp only [World.takes?, hy, Option.bind_some]

theorem sends? (h : d.Takes w x q c received r) : w.sends? d = none := by
  cases h <;> rfl

theorem brings (h : d.Takes w x q c received r) : ∃ deadline, q.Brings w.now deadline r := by
  cases h with
  | starts => exact ⟨_, q.startTake_brings _ _ _⟩
  | resumes deadline => exact ⟨_, q.resumeTake_brings _ _ _ _⟩

end Duty.Takes

namespace World

/-- The effect of any duty that has been taken off the agenda. -/
theorem Did.effect (h : w.Did t x d v) :
    Effect t ((w.sends? d).filter fun s => w.accepts s.1 s.2).toList (w.takes? x d).toList w v := by
  cases h with
  | passes hd hv =>
    rw [Duty.takes?_of_slight hd]
    exact hv.effect t
  | plans hplan hv =>
    rw [hplan.takes?]
    exact (hv.effect t).trans_quiet (.push t _ _)
  | concludes hd hv outcome =>
    have hnone : w.takes? x d = none := by
      cases d with
      | take | wait => cases hd
      | _ => rfl
    rw [hnone]
    exact (hv.effect t).trans_quiet (.updateThread t _ _)
  | refuses | greets | replies =>
    refine Effect.trans_quiet ?_ (.updateThread t _ _)
    exact .of_same rfl rfl rfl
  | opens =>
    refine Effect.trans_quiet ?_ (.push t _ _)
    exact .opened t rfl rfl rfl rfl w.ids.draw_named
  | locks c | unlocks c =>
    cases hy : w.conn? c with
    | none => exact .updateConn_none t _ hy
    | some y => exact .updateConn_kept t hy rfl rfl
  | takes hy hd =>
    obtain ⟨_, hbrings⟩ := hd.brings
    rw [hd.takes? hy, hd.sends?]
    exact Effect.trans_quiet (.taken t w hy hbrings.pending) (.push t _ _)
  | closes hy =>
    refine Effect.trans_quiet ?_ (.push t _ _)
    exact .closed t hy rfl rfl rfl
  | registers => exact .of_same rfl rfl rfl
  | throws => exact .throw t w _

/-- A side duty plans side duties and sends, unless it throws. -/
theorem Did.aside (h : w.Did t x d v) (hd : d.side = true)
    (hthrow : ∀ number c data value, d ≠ .act number c data (.throw value)) :
    Aside t ((w.sends? d).filter fun s => w.accepts s.1 s.2).toList w v := by
  have hnone : w.takes? x d = none := by
    cases d <;> first | rfl | cases hd
  have heffect := h.effect
  rw [hnone] at heffect
  refine ⟨heffect, fun z hz => ?_⟩
  have hpushed : ∀ {u : World} {duties : List Duty}, u.threads = w.threads → (∀ e ∈ duties, e.side = true) →
      ∃ y, (u.push t duties).threads[t]? = some y ∧ z.Pushed y := by
    intro u duties hthreads hduties
    exact ⟨_, threads_updateThread_self (by rw [hthreads, hz]) _, ⟨duties, hduties, rfl⟩, rfl, rfl, rfl⟩
  cases h with
  | passes _ hv => exact ⟨z, by rw [hv.threads, hz], .refl z⟩
  | plans hplan hv => exact hpushed hv.threads (hplan.side hd)
  | concludes _ hv outcome =>
    exact ⟨_, threads_updateThread_self (by rw [hv.threads, hz]) _, ⟨[], by simp, rfl⟩, rfl, rfl, rfl⟩
  | closes => exact hpushed rfl (by simp [Duty.side])
  | registers => exact ⟨z, hz, .refl z⟩
  | throws number c data value => exact absurd rfl (hthrow number c data value)
  | takes _ htakes => cases htakes <;> cases hd
  | _ => cases hd

/-- What a connection accepts does not depend on the threads. -/
theorem accepts_updateThread (w : World) (t : Nat) (f : Thread → Thread) (c : Nat) (text : String) :
    (w.updateThread t f).accepts c text = w.accepts c text := by
  have hconn : (w.updateThread t f).conn? c = w.conn? c := rfl
  unfold accepts sendTo
  rw [hconn]
  cases w.conn? c with
  | none => rfl
  | some y =>
    obtain ⟨id, protocol, connected, queue, holder⟩ := y
    cases connected <;> rfl

/-- Thread `t` is `x`, and has `d` to do before the rest. -/
structure Next (w : World) (t : Nat) (x : Thread) (d : Duty) (rest : List Duty) : Prop where
  thread : w.threads[t]? = some x
  agenda : x.agenda = d :: rest

/-- The effect of a step on the other threads and on the connections. -/
theorem Next.effect {rest : List Duty} (hx : w.Next t x d rest) :
    Effect t ((w.sends? d).filter fun s => w.accepts s.1 s.2).toList (w.takes? x d).toList w
      (w.stepThread t) := by
  have hstep : w.stepThread t =
      (w.updateThread t fun x => { x with agenda := rest }).discharge t x d := by
    simp only [stepThread, hx.thread, hx.agenda]
  set u := w.updateThread t fun x => { x with agenda := rest }
  have hpopped : Effect t [] [] w u := .updateThread t w _
  have htrans := hpopped.trans (u.did_discharge t x d).effect
  -- taking the duty off the agenda does not change what connections accept
  have haccepts : (fun s : Nat × String => u.accepts s.1 s.2) = fun s => w.accepts s.1 s.2 :=
    funext fun s => w.accepts_updateThread t _ s.1 s.2
  rw [haccepts] at htrans
  rw [hstep]
  exact htrans

end World

/-- What a connection has accepted is what was taken from it, followed by what waits in it. -/
def Conserved (b : Books) (w : World) : Prop :=
  ∀ c, b.acceptedBy c = (b.takesFrom c).flatten ++ w.pendingOf c

theorem conserved_step {h : History} (hc : Conserved h.toBooks h.world) {rest : List Duty}
    (hx : h.world.Next t x d rest) :
    Conserved (h.enter h.world (h.world.stepThread t) t x d) (h.world.stepThread t) := by
  intro c
  have hpending := hx.effect.pending c
  have htakes : (((h.world.takes? x d).map (Prod.mk t)).toList.map (·.2)) = (h.world.takes? x d).toList := by
    cases h.world.takes? x d <;> rfl
  have hold := hc c
  simp only [Books.acceptedBy, Books.takesFrom] at hold
  simp only [Books.acceptedBy, Books.takesFrom, Books.enter, entriesOf_append, List.map_append,
    List.flatten_append, htakes]
  rw [hold, List.append_assoc, List.append_assoc, hpending]

/-- The first duty of a thread that executes a handler. -/
theorem World.acting?_eq_some {w : World} {t number c : Nat} {data : String}
    (h : w.acting? t = some (number, c, data)) :
    ∃ x a rest, w.Next t x (.act number c data a) rest := by
  unfold World.acting? at h
  split at h
  next heq =>
    cases h
    exact ⟨_, _, _, heq, rfl⟩
  next => cases h

/-- A thread that can go on has something to do. -/
theorem World.agenda_of_ready {w : World} {t : Nat} (h : w.ready t = true) :
    ∃ x d rest, w.Next t x d rest := by
  unfold World.ready at h
  split at h
  · cases h
  next x hx =>
    cases hagenda : x.agenda with
    | nil =>
      rw [hagenda] at h
      cases h
    | cons d rest => exact ⟨x, d, rest, hx, hagenda⟩

namespace History

theorem after_step_eq {h : History} {rest : List Duty} (hready : h.world.ready t = true)
    (hx : h.world.Next t x d rest) : h.after (.step t) =
      { h.enter h.world (h.world.stepThread t) t x d with world := h.world.stepThread t } := by
  rw [after, if_pos hready]
  simp only [step, hx.thread, hx.agenda]

/-- A thread has to wait, or does its first duty. -/
theorem step_cases (h : History) (t : Nat) : h.world.ready t = false ∧ h.after (.step t) = h ∨
    h.world.ready t = true ∧ ∃ x d rest, h.world.Next t x d rest ∧ h.after (.step t) =
      { h.enter h.world (h.world.stepThread t) t x d with world := h.world.stepThread t } := by
  cases hready : h.world.ready t with
  | false => exact Or.inl ⟨rfl, if_neg (Bool.eq_false_iff.1 hready)⟩
  | true =>
    obtain ⟨x, d, rest, hx⟩ := World.agenda_of_ready hready
    exact Or.inr ⟨rfl, x, d, rest, hx, after_step_eq hready hx⟩

end History

end PollSocket.Server
