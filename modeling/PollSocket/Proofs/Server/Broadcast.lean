import PollSocket.Proofs.Server.Refusals

set_option autoImplicit false

/-!
# Broadcasts

A broadcast goes through the connections that are online, in any order, and offers its text to each. Every
connection in the table is open (`World.OnlineOpen.run`), so one step of a broadcast queues the text or records that
there is no room (`broadcast_step`), and the connections that are still to come do not notice it. What a whole
broadcast offers then does not depend on the order (`History.world_broadcast`), and several of them leave in every
queue the longest beginning of the texts that it has room for (`broadcasts_any_order`).
-/

namespace PollSocket

namespace Poll.Queue

/-- Number of messages that the queue has room for, if it has a limit. -/
def room? (q : Queue) : Option Nat :=
  if 0 < q.limit then some (q.limit - q.pending.length).toNat else none

/-- The longest beginning of the messages that there is room for. -/
def fitting (q : Queue) (messages : List String) : List String := q.room?.elim messages messages.take

/-- The queue once messages were written to it, one after the other. -/
def writes (q : Queue) (messages : List String) : Queue := messages.foldl (fun q text => (q.write text).1) q

variable {q : Queue}

/-- Of the beginnings for which there is room it is the longest. -/
theorem fitting_longest (q : Queue) (messages : List String) :
    (q.fitting messages <+: messages ∧ ∀ n, q.room? = some n → (q.fitting messages).length ≤ n) ∧
      ∀ more, more <+: messages → (∀ n, q.room? = some n → more.length ≤ n) → more <+: q.fitting messages := by
  rw [fitting]
  cases q.room? with
  | none => exact ⟨⟨List.prefix_rfl, nofun⟩, fun more hmore _ => hmore⟩
  | some n =>
    refine ⟨⟨List.take_prefix n messages, ?_⟩, fun more hmore hfits => ?_⟩
    · rintro _ ⟨⟩
      exact List.length_take_le n messages
    · exact List.prefix_take_iff.2 ⟨hmore, hfits n rfl⟩

theorem fitting_of_full (h : q.full = true) (messages : List String) : q.fitting messages = [] := by
  obtain ⟨hlimit, hmany⟩ := q.full_iff.1 h
  have hzero : (q.limit - q.pending.length).toNat = 0 := by omega
  rw [fitting, room?, if_pos hlimit, hzero]
  rfl

theorem fitting_nil (q : Queue) : q.fitting [] = [] := by
  rw [fitting]
  cases q.room? <;> simp

/-- A message that is queued takes one place. -/
theorem fitting_cons (h : q.full = false) (text : String) (more : List String) :
    q.fitting (text :: more) =
      text :: { q with pending := q.pending ++ [text], token := true }.fitting more := by
  rw [fitting, fitting, room?, room?]
  split
  next hlimit =>
    have hless : ¬ q.limit ≤ q.pending.length := by
      intro hle
      rw [q.full_iff.2 ⟨hlimit, hle⟩] at h
      cases h
    have hroom : (q.limit - q.pending.length).toNat = (q.limit - (q.pending ++ [text]).length).toNat + 1 := by
      rw [List.length_append, List.length_singleton]
      omega
    rw [hroom]
    rfl
  next => rfl

theorem fitting_singleton (q : Queue) (text : String) : q.fitting [text] = if q.full then [] else [text] := by
  cases hfull : q.full with
  | true => exact fitting_of_full hfull _
  | false =>
    rw [fitting_cons hfull, fitting_nil]
    rfl

/-- Messages that are written stand behind what the queue has, as many as fit. -/
theorem writes_eq (hopen : q.closed = false) (messages : List String) :
    q.writes messages = { q with
      pending := q.pending ++ q.fitting messages
      token := q.token || !(q.fitting messages).isEmpty } := by
  induction messages generalizing q with
  | nil => simp [writes, fitting_nil]
  | cons text more ih =>
    rw [writes, List.foldl_cons]
    cases hfull : q.full with
    | true =>
      -- the queue stays as it is, and nothing fits before or after
      rw [q.write_of_full text hopen hfull, fitting_of_full hfull, ← fitting_of_full hfull more]
      exact ih hopen
    | false =>
      rw [q.write_of_room text hopen hfull, fitting_cons hfull]
      exact (ih (q := { q with pending := q.pending ++ [text], token := true }) hopen).trans (by simp)

end Poll.Queue

namespace Server

/-- The note is a record of a log. -/
def Note.isLogged : Note → Bool
  | .logged _ _ => true
  | _ => false

/-- The connection once texts were offered to it. -/
def Conn.offer (texts : List String) (x : Conn) : Conn := { x with queue := x.queue.writes texts }

namespace World

/-- The texts are offered to the given connections on the way from one world to the other, which has the given
threads. Apart from that only records are logged. -/
structure Offers (w : World) (order : List Nat) (texts : List String) (threads : List Thread) (v : World) : Prop where
  offers : ∀ c, v.conn? c = (w.conn? c).map fun y => if c ∈ order then y.offer texts else y
  others : ∃ conns notes, (∀ n ∈ notes, Note.isLogged n = true) ∧
    v = { w with conns := conns, threads := threads, journal := w.journal ++ notes }

/-! ## The table of connections -/

/-- Every connection in the table is open, and has the id that it stands for. -/
def OnlineOpen (w : World) : Prop := ∀ e ∈ w.online, w.row? e.2 = some (e.1, true, false)

variable {w v : World} {t : Nat} {x z : Thread} {d : Duty} {rest : List Duty} {text : String}

theorem OnlineOpen.of_steady (h : w.OnlineOpen) (hsteady : w.Steady v) : v.OnlineOpen := by
  intro e he
  rw [row?_eq_face, hsteady.faces, ← row?_eq_face]
  exact h e (hsteady.online ▸ he)

theorem OnlineOpen.step (h : w.OnlineOpen) (hdoes : w.Does t x d rest z v) : v.OnlineOpen := by
  -- a connection that is not closed stays open
  have hkept : ∀ e ∈ w.online, d ≠ .close e.2 → v.row? e.2 = some (e.1, true, false) := by
    intro e he hclose
    have hrow := h e he
    have halters := hdoes.alters e.2
    rw [row?_eq_face] at hrow ⊢
    generalize w.faces[e.2]? = f at halters hrow
    generalize v.faces[e.2]? = g at halters ⊢
    cases halters with
    | opened => cases hrow
    | closed hd => exact absurd hd hclose
    | released =>
      rw [Option.map_some, Face.release]
      split <;> exact hrow
    | _ => exact hrow
  cases hdoes with
  | plans _ _ _ _ hsteady => exact h.of_steady hsteady
  | opens hd _ _ hfaces _ honline =>
    intro e he
    rw [honline] at he
    rcases mem_putEntry he with rfl | he
    · rw [row?_eq_face, hfaces, ← w.length_faces, List.getElem?_concat_length]
      rfl
    · exact hkept e he fun hclose => by cases hd.symm.trans hclose
  | closes hd hy _ _ _ _ _ honline =>
    intro e he
    rw [honline] at he
    obtain ⟨hmem, hne⟩ := List.mem_filter.1 he
    refine hkept e hmem fun hclose => ?_
    -- the connection that is closed had the id that left the table
    cases hd.symm.trans hclose
    have hrow := h e hmem
    rw [row?_of_conn hy, Option.some.injEq, Prod.mk.injEq] at hrow
    rw [hrow.1, bne_self_eq_false] at hne
    cases hne
  | locks hd _ _ _ _ honline | unlocks hd _ _ _ _ honline | throws hd _ _ _ _ honline =>
    intro e he
    exact hkept e (honline ▸ he) fun hclose => by cases hd.symm.trans hclose

theorem OnlineOpen.run (settings : Settings) (limiter : Option Limiter) (ids : Ids) (moves : List Move) :
    (History.run settings limiter ids moves).world.OnlineOpen :=
  World.run_induction nofun .of_steady .step moves

/-- The connection is there and has not been closed. -/
def Connected (w : World) (c : Nat) : Prop := ∃ y, w.conn? c = some y ∧ y.connected = true

/-- Connections that are online are there once, and connected. -/
structure Attended (w : World) : Prop where
  nodup : w.onlineConns.Nodup
  connected : ∀ c ∈ w.onlineConns, w.Connected c

theorem OnlineOpen.conn (h : w.OnlineOpen) {c : Nat} (hc : c ∈ w.onlineConns) :
    ∃ y, w.conn? c = some y ∧ y.connected = true ∧ y.queue.closed = false := by
  obtain ⟨e, he, rfl⟩ := List.mem_map.1 hc
  have hrow := h e he
  rw [row?_eq_face, getElem?_faces, Option.map_map, Option.map_eq_some_iff] at hrow
  obtain ⟨y, hy, hrow⟩ := hrow
  exact ⟨y, hy, congrArg (fun r => r.2.1) hrow, congrArg (fun r => r.2.2) hrow⟩

/-- A connection stands in the table under its own id only. -/
theorem OnlineOpen.attended (h : w.OnlineOpen) (hpaired : w.Paired) : w.Attended := by
  have hkeys : (w.online.map Prod.fst).Nodup := hpaired.tables ▸ hpaired.keys
  constructor
  · refine List.Nodup.map_on ?_ hkeys.of_map
    intro e he e' he' heq
    -- both entries have the id of their connection
    have hrow := h e he
    rw [heq, h e' he', Option.some.injEq, Prod.mk.injEq] at hrow
    exact Prod.ext hrow.1.symm heq
  · intro c hc
    obtain ⟨y, hy, hconnected, -⟩ := h.conn hc
    exact ⟨y, hy, hconnected⟩

/-! ## One broadcast -/

theorem modify_eq_set {α : Type} {l : List α} {i : Nat} {a : α} (h : l[i]? = some a) (f : α → α) :
    l.modify i f = l.set i (f a) := by
  rw [List.modify_eq_set_getElem?, h]
  rfl

variable {order : List Nat} {texts : List String} {threads threads' : List Thread} {u : World}

/-- Offers that are made one after the other. -/
theorem Offers.trans {order' : List Nat} {texts' : List String} (order'' : List Nat) (texts'' : List String)
    (h : w.Offers order texts threads v) (h' : v.Offers order' texts' threads' u)
    (hboth : ∀ c (y : Conn), (if c ∈ order' then (if c ∈ order then y.offer texts else y).offer texts' else
      if c ∈ order then y.offer texts else y) = if c ∈ order'' then y.offer texts'' else y) :
    w.Offers order'' texts'' threads' u := by
  constructor
  · intro c
    rw [h'.offers, h.offers, Option.map_map]
    exact Option.map_congr fun y _ => hboth c y
  · obtain ⟨_, notes, hlogged, rfl⟩ := h.others
    obtain ⟨conns, notes', hlogged', rfl⟩ := h'.others
    exact ⟨conns, notes ++ notes', List.forall_mem_append.2 ⟨hlogged, hlogged'⟩, by rw [List.append_assoc]⟩

theorem Offers.threads_eq (h : w.Offers order texts threads v) : v.threads = threads := by
  obtain ⟨_, _, _, rfl⟩ := h.others
  rfl

theorem Offers.perm {order' : List Nat} (h : w.Offers order texts threads v) (hperm : order.Perm order') :
    w.Offers order' texts threads v :=
  ⟨fun c => by simp only [h.offers, hperm.mem_iff], h.others⟩

theorem Offers.connected {c : Nat} (h : w.Offers order texts threads v) (hc : w.Connected c) : v.Connected c := by
  obtain ⟨y, hy, hconnected⟩ := hc
  rw [Connected, h.offers, hy]
  exact ⟨_, rfl, by split <;> exact hconnected⟩

/-- The first connection is offered the text, and a refusal is recorded. -/
theorem broadcast_step {c : Nat} {more : List Nat} (hx : w.Next t x (.broadcast (c :: more) text) rest)
    (hc : w.Connected c) :
    w.Offers [c] [text] (w.threads.set t { x with agenda := .broadcast more text :: rest }) (w.stepThread t) := by
  obtain ⟨y, hy, hconnected⟩ := hc
  have hoffers : ∀ d, (w.conns.modify c fun z => { z with queue := (y.queue.write text).1 })[d]? =
      (w.conn? d).map fun y => if d ∈ [c] then y.offer [text] else y := by
    intro d
    rw [List.getElem?_modify]
    by_cases hd : c = d
    · subst hd
      rw [hy, show w.conns[c]? = some y from hy]
      simp [Conn.offer, Poll.Queue.writes]
    · simp [hd, Ne.symm hd, conn?]
  -- the duty leaves the agenda, and what is left of the broadcast comes in its place
  have hthreads : (w.threads.modify t fun x => { x with agenda := rest }).modify t
      (fun x => { x with agenda := [.broadcast more text] ++ x.agenda }) =
        w.threads.set t { x with agenda := .broadcast more text :: rest } := by
    rw [List.modify_modify_eq, modify_eq_set hx.thread]
    rfl
  rw [hx.step_eq, ← hthreads]
  simp only [discharge, sendTo_of_connected (w := w.pop t rest) hy hconnected]
  split
  · exact ⟨hoffers, _, [.logged _ _], List.forall_mem_singleton.2 rfl, rfl⟩
  · exact ⟨hoffers, _, [], by simp, by rw [List.append_nil]; rfl⟩

end World

namespace History

variable {h : History} {t : Nat} {x : Thread} {rest : List Duty} {order : List Nat} {text : String}

/-- A thread that broadcasts offers the text to every connection that it goes through, and is not held up. -/
theorem world_broadcast (hx : h.world.Next t x (.broadcast order text) rest) (hnodup : order.Nodup)
    (hopen : ∀ c ∈ order, h.world.Connected c) :
    h.world.Offers order [text] (h.world.threads.set t { x with agenda := rest })
      ((List.replicate (order.length + 1) (Move.step t)).foldl after h).world := by
  induction order generalizing h x with
  | nil =>
    show World.Offers _ _ _ _ (h.after (.step t)).world
    rw [world_after_step (hx.ready rfl rfl), hx.step_eq,
      ← World.modify_eq_set hx.thread fun x => { x with agenda := rest }]
    exact ⟨fun c => by simp; rfl, _, [], by simp, by rw [List.append_nil]; rfl⟩
  | cons c more ih =>
    obtain ⟨hc, hmore⟩ := List.nodup_cons.1 hnodup
    obtain ⟨hfirst, hothers⟩ := List.forall_mem_cons.1 hopen
    have hstep := World.broadcast_step hx hfirst
    rw [← world_after_step (hx.ready rfl rfl)] at hstep
    have hself : (h.after (.step t)).world.threads[t]? = some { x with agenda := .broadcast more text :: rest } := by
      rw [hstep.threads_eq]
      exact List.getElem?_set_self (List.getElem?_eq_some_iff.1 hx.thread).1
    have hrest := ih ⟨hself, rfl⟩ hmore fun d hd => hstep.connected (hothers d hd)
    rw [hstep.threads_eq, List.set_set] at hrest
    refine hstep.trans _ _ hrest fun d y => ?_
    -- no connection is offered the text twice
    by_cases hd : d = c
    · simp [hd, hc]
    · simp [hd]

/-- A broadcast by the program, which goes through the connections in the given order. -/
def broadcastIn (h : History) (call : List Nat × String) : History :=
  (List.replicate (call.1.length + 1) (Move.step h.world.threads.length)).foldl after
    (h.spawn [.broadcast call.1 call.2] none)

theorem world_broadcastIn (hattended : h.world.Attended) {call : List Nat × String}
    (horder : call.1.Perm h.world.onlineConns) :
    h.world.Offers h.world.onlineConns [call.2] (h.world.threads ++ [{ agenda := [] }]) (h.broadcastIn call).world := by
  have hoffers := world_broadcast (h := h.spawn [.broadcast call.1 call.2] none) ⟨List.getElem?_concat_length, rfl⟩
    (horder.nodup_iff.2 hattended.nodup) fun c hc => hattended.connected c (horder.mem_iff.1 hc)
  have hthreads : (h.spawn [.broadcast call.1 call.2] none).world.threads.set h.world.threads.length
      { agenda := [] } = h.world.threads ++ [{ agenda := [] }] :=
    (List.set_append_right _ _ le_rfl).trans (by rw [Nat.sub_self]; rfl)
  rw [hthreads] at hoffers
  exact ⟨(hoffers.perm horder).offers, hoffers.others⟩

/-- Several broadcasts, each in an order of its own. -/
theorem world_broadcasts (hattended : h.world.Attended) {calls : List (List Nat × String)}
    (hcalls : ∀ call ∈ calls, call.1.Perm h.world.onlineConns) :
    h.world.Offers h.world.onlineConns (calls.map Prod.snd)
      (h.world.threads ++ List.replicate calls.length { agenda := [] }) (calls.foldl broadcastIn h).world := by
  induction calls generalizing h with
  | nil => exact ⟨fun c => by simp [Conn.offer, Poll.Queue.writes], h.world.conns, [], by simp, by simp⟩
  | cons call more ih =>
    obtain ⟨hfirst, hmore⟩ := List.forall_mem_cons.1 hcalls
    have hone := world_broadcastIn hattended hfirst
    -- offers do not touch the table, so the next broadcast goes through the same connections
    have honline : (h.broadcastIn call).world.onlineConns = h.world.onlineConns := by
      obtain ⟨_, _, _, hworld⟩ := hone.others
      rw [hworld]
      rfl
    have hrest := ih ⟨honline ▸ hattended.nodup, fun c hc => hone.connected (hattended.connected c (honline ▸ hc))⟩
      (honline ▸ hmore)
    rw [honline, hone.threads_eq, List.append_assoc] at hrest
    refine hone.trans _ _ hrest fun c y => ?_
    split <;> rfl

end History

/-- Whatever the order is in which a thread that broadcasts a text goes through the connections, the text is offered
to every connection that is online, and apart from that only records are logged. So are the texts of several
broadcasts by the program, each in an order of its own. They are put behind what a connection has, as many as fit,
which is one copy of a single text unless the connection is full, and the same for connections with the same room. -/
theorem broadcasts_any_order (settings : Settings) (limiter : Option Limiter) (ids : Ids) (moves : List Move) :
    let h := History.run settings limiter ids moves
    let w := h.world
    (∀ t x rest order text, w.Next t x (.broadcast order text) rest → order.Perm w.onlineConns →
      w.Offers w.onlineConns [text] (w.threads.set t { x with agenda := rest })
        ((List.replicate (order.length + 1) (.step t)).foldl History.after h).world) ∧
    (∀ text, (.broadcast text :: List.replicate (w.onlineConns.length + 1) (.step w.threads.length)).foldl
      History.after h = h.broadcastIn (w.onlineConns, text)) ∧
    (∀ calls : List (List Nat × String), (∀ call ∈ calls, call.1.Perm w.onlineConns) →
      w.Offers w.onlineConns (calls.map Prod.snd) (w.threads ++ List.replicate calls.length { agenda := [] })
        (calls.foldl History.broadcastIn h).world) ∧
    ∀ c ∈ w.onlineConns, ∃ y, w.conn? c = some y ∧
      (∀ text, y.queue.fitting [text] = if y.queue.full then [] else [text]) ∧
      ∀ texts, y.queue.writes texts = { y.queue with
          pending := y.queue.pending ++ y.queue.fitting texts
          token := y.queue.token || !(y.queue.fitting texts).isEmpty } ∧
        (y.queue.fitting texts <+: texts ∧ ∀ n, y.queue.room? = some n → (y.queue.fitting texts).length ≤ n) ∧
        (∀ more, more <+: texts → (∀ n, y.queue.room? = some n → more.length ≤ n) →
          more <+: y.queue.fitting texts) ∧
        ∀ q : Poll.Queue, q.room? = y.queue.room? → q.fitting texts = y.queue.fitting texts := by
  intro h w
  have honline : w.OnlineOpen := World.OnlineOpen.run settings limiter ids moves
  have hattended : w.Attended := honline.attended (World.Paired.run settings limiter ids moves)
  refine ⟨?_, fun _ => rfl, fun calls => History.world_broadcasts hattended, ?_⟩
  · intro t x rest order text hx horder
    have hoffers := History.world_broadcast hx (horder.nodup_iff.2 hattended.nodup)
      fun c hc => hattended.connected c (horder.mem_iff.1 hc)
    exact hoffers.perm horder
  · intro c hc
    obtain ⟨y, hy, -, hopen⟩ := honline.conn hc
    refine ⟨y, hy, y.queue.fitting_singleton, fun texts => ⟨Poll.Queue.writes_eq hopen texts, ?_⟩⟩
    obtain ⟨hfits, hlongest⟩ := y.queue.fitting_longest texts
    exact ⟨hfits, hlongest, fun q hroom => by rw [Poll.Queue.fitting, hroom, Poll.Queue.fitting]⟩

/-- Three sessions are opened. Then the second one gets as many messages as fit, and the first one gets one. -/
def fullMiddle : List Move :=
  .request Chronicle.opening :: Watch.steps 0 4 ++ .request Chronicle.opening :: Watch.steps 1 4 ++
    .request Chronicle.opening :: Watch.steps 2 4 ++
    [.send 1 "a", .step 3, .send 1 "b", .step 4, .send 0 "c", .step 5]

theorem broadcasts_any_order_fullMiddle :
    let h := History.run { bufferSize := 2 } none {} fullMiddle
    let k := ([([2, 1, 0], "x"), ([0, 2, 1], "y")] : List (List Nat × String)).foldl History.broadcastIn h
    h.world.onlineConns = [0, 1, 2] ∧
      ([0, 1, 2].map fun c => (h.world.conn? c).map fun y => (y.queue.pending, y.queue.room?)) =
        [some (["c"], some 1), some (["a", "b"], some 0), some ([], some 2)] ∧
      ([0, 1, 2].map fun c => (k.world.conn? c).map fun y => y.queue.pending) =
        [some ["c", "x"], some ["a", "b"], some ["x", "y"]] := by
  have hrun :
      let h := History.run { bufferSize := 2 } none {} fullMiddle
      h.world.onlineConns = [0, 1, 2] ∧
        ([0, 1, 2].map fun c => (h.world.conn? c).map fun y => (y.queue.pending, y.queue.room?)) =
          [some (["c"], some 1), some (["a", "b"], some 0), some ([], some 2)] ∧
        ([0, 1, 2].map fun c => ((h.world.conn? c).map fun y => if c ∈ [0, 1, 2] then y.offer ["x", "y"] else y).map
          fun y => y.queue.pending) = [some ["c", "x"], some ["a", "b"], some ["x", "y"]] := by
    decide +kernel
  have hcalls := (broadcasts_any_order { bufferSize := 2 } none {} fullMiddle).2.2.1
    [([2, 1, 0], "x"), ([0, 2, 1], "y")]
  -- from here on only these facts about the run matter
  generalize History.run { bufferSize := 2 } none {} fullMiddle = h at hrun hcalls ⊢
  obtain ⟨honline, hconns, hoffers⟩ := hrun
  rw [honline] at hcalls
  refine ⟨honline, hconns, ?_⟩
  simp only [(hcalls (by decide)).offers]
  exact hoffers

end Server

end PollSocket
