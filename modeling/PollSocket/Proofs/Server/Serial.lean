import PollSocket.Proofs.Server.Expiry

set_option autoImplicit false

/-!
# Drains of a session, one after another

Any number of drains of a session may be under way at once, but one of them holds the session. A grant history
keeps the order in which drains took hold of sessions. In this order their messages are told, batch by batch,
and in this order they take what waits for the client: what belongs to a drain comes after all that belongs to
the drains before it (`Serial`). A drain lets go of its session when it has told of its whole batch and has
answered with what it took, or when a handler throws (`GrantHistory.Outcome`). One that waits goes on for any
reason that holds; if its client has given up it may take nothing, and what is there stays.

Threads run in any order, in steps as small as those of the server; nothing is assumed of ids.
-/

namespace PollSocket.Server

variable {m : Move} {c t : Nat} {x : Thread}

/-! ## Entries in the order of grants -/

section Serial

variable {α : Type}

/-- Entries of threads for connections are those of one thread after another, in the order in which the threads
were granted the connection. -/
structure Serial (grants : List (Nat × Nat)) (entries : List (Nat × Nat × α)) : Prop where
  granted : ∀ t c a, (t, c, a) ∈ entries → (c, t) ∈ grants
  whole : ∀ c, entriesOf c (entries.map (·.2)) =
    (entriesOf c grants).flatMap fun t => entriesOf c (entriesOf t entries)

namespace Serial

variable {grants : List (Nat × Nat)} {entries : List (Nat × Nat × α)}

theorem nil : Serial [] ([] : List (Nat × Nat × α)) := ⟨by simp, by simp⟩

/-- A thread that has no entries yet is granted a connection. -/
theorem grant (h : Serial grants entries) (hnew : ∀ d, (d, t) ∉ grants) :
    Serial (grants ++ [(c, t)]) entries where
  granted u d a he := List.mem_append_left _ (h.granted u d a he)
  whole d := by
    have hnone : entriesOf t entries = [] := by
      rw [List.eq_nil_iff_forall_not_mem]
      rintro ⟨d, a⟩ he
      exact hnew d (h.granted t d a (mem_entriesOf.1 he))
    rw [h.whole d, entriesOf_append, entriesOf_singleton]
    simp [hnone]

/-- The thread that was granted the connection last makes an entry. -/
theorem enter (h : Serial grants entries) (hlast : (entriesOf c grants).getLast? = some t)
    (hnodup : (entriesOf c grants).Nodup) (a : α) : Serial grants (entries ++ [(t, c, a)]) where
  granted u d b he := by
    rcases List.mem_append.1 he with he | he
    · exact h.granted u d b he
    · cases List.mem_singleton.1 he
      exact mem_entriesOf.1 (List.mem_of_getLast? hlast)
  whole d := by
    rw [List.map_append, entriesOf_append, h.whole d, List.map_singleton, entriesOf_singleton]
    by_cases hd : c = d
    · -- the entry comes last, and it is that of the last thread
      subst hd
      obtain ⟨before, hbefore⟩ := List.getLast?_eq_some_iff.1 hlast
      rw [hbefore] at hnodup ⊢
      have hsame : ∀ u ∈ before, entriesOf c (entriesOf u (entries ++ [(t, c, a)])) =
          entriesOf c (entriesOf u entries) := by
        intro u hu
        have hne : t ≠ u := by
          rintro rfl
          exact List.disjoint_of_nodup_append hnodup hu (List.mem_singleton.2 rfl)
        rw [entriesOf_append, entriesOf_singleton, if_neg hne, List.append_nil]
      have hown : entriesOf c (entriesOf t (entries ++ [(t, c, a)])) =
          entriesOf c (entriesOf t entries) ++ [a] := by
        rw [entriesOf_append, entriesOf_singleton, if_pos rfl, entriesOf_append, entriesOf_singleton, if_pos rfl]
      rw [List.flatMap_append, List.flatMap_append, List.flatMap_congr hsame, List.flatMap_singleton,
        List.flatMap_singleton, hown, if_pos rfl, List.append_assoc]
    · rw [if_neg hd, List.append_nil]
      refine List.flatMap_congr fun u _ => ?_
      by_cases hu : t = u <;> simp [hu, entriesOf_singleton, hd]

end Serial

end Serial

/-! ## Histories with grants -/

/-- The connection that a move takes hold of, with the thread that does so. -/
def World.grant? (w : World) : Move → Option (Nat × Nat)
  | .step t =>
    match w.ready t, w.first? t with
    | true, some (.lock c) => some (c, t)
    | _, _ => none
  | _ => none

theorem World.grant?_eq_some {w : World} : w.grant? m = some (c, t) ↔
    m = .step t ∧ w.ready t = true ∧ ∃ x rest, w.Next t x (.lock c) rest := by
  constructor
  · intro h
    cases m with
    | step u =>
      rw [grant?] at h
      split at h
      next hready hfirst =>
        cases h
        obtain ⟨x, d, rest, hx⟩ := agenda_of_ready hready
        rw [hx.first] at hfirst
        cases hfirst
        exact ⟨rfl, hready, x, rest, hx⟩
      next => cases h
    | _ =>
      cases h
  · rintro ⟨rfl, hready, x, rest, hx⟩
    rw [grant?, hready, hx.first]

theorem heldBy_of_after (h : History) (m : Move) (ht : (h.after m).world.HeldBy c t) :
    h.world.HeldBy c t ∨ h.world.grant? m = some (c, t) := by
  obtain hsteady | ⟨u, x, d, rest, z, rfl, hready, hx, -, hdoes⟩ := (h.turns_after m).steady_or_does
  · obtain ⟨f, hf, hft⟩ := ht
    exact Or.inl ⟨f, by rw [← hsteady.faces, hf], hft⟩
  · rcases hdoes.heldBy_before ht with hkept | ⟨rfl, rfl⟩
    · exact Or.inl hkept
    · exact Or.inr (World.grant?_eq_some.2 ⟨rfl, hready, x, rest, hx⟩)

/-- A server with what led to it and with the order in which drains took hold of sessions. -/
structure GrantHistory extends History where
  /-- Connections and the threads that took hold of them. -/
  grants : List (Nat × Nat) := []

namespace GrantHistory

def after (s : GrantHistory) (m : Move) : GrantHistory :=
  { toHistory := s.toHistory.after m
    grants := s.grants ++ (s.world.grant? m).toList }

/-- The history of a run of a new server. -/
def run (settings : Settings) (limiter : Option Limiter) (ids : Ids) (moves : List Move) : GrantHistory :=
  moves.foldl after { toHistory := .new settings limiter ids }

theorem run_concat (settings : Settings) (limiter : Option Limiter) (ids : Ids) (moves : List Move) (m : Move) :
    run settings limiter ids (moves ++ [m]) = (run settings limiter ids moves).after m :=
  List.foldl_append

/-- Drains of connection `c`, in the order in which they took hold of it. -/
def drainsOf (s : GrantHistory) (c : Nat) : List Nat := entriesOf c s.grants

/-- What has become of thread `t`, which has taken hold of connection `c` to drain it with the messages
`batch`. -/
inductive Outcome (s : GrantHistory) (c t : Nat) (batch : List String) : Prop
  | holding {x : Thread} {told : List String} {taken : Option (List String)}
    (hx : s.world.threads[t]? = some x) (hunlock : .unlock c ∈ x.agenda) (hheld : s.world.HeldBy c t)
    (htold : s.toldBy t = told.map (Prod.mk c)) (hbatch : told <+: batch)
    (htakes : s.takesBy t = taken.toList.map (Prod.mk c))
  /-- All messages were told, and the answer was what was taken, if the client was still there. -/
  | complete {x : Thread} {taken : Option (List String)} (hx : s.world.threads[t]? = some x)
    (hagenda : x.agenda = []) (htold : s.toldBy t = batch.map (Prod.mk c))
    (htakes : s.takesBy t = taken.toList.map (Prod.mk c)) (hanswered : Answered x.unwritable taken x.answer)
  /-- A handler has thrown a value. -/
  | thrown {x : Thread} {told : List String} (hx : s.world.threads[t]? = some x) (hagenda : x.agenda = [])
    (hthrown : x.thrown.isSome = true) (htold : s.toldBy t = told.map (Prod.mk c)) (hbatch : told <+: batch)
    (htakes : s.takesBy t = [])

/-- What a drain that took hold of connection `c` is, and what has become of it. -/
def Drains (s : GrantHistory) (c t : Nat) : Prop :=
  ∃ r q, s.origins[t]? = some (some r) ∧ Admitted s.world r c q ∧ s.Outcome c t q.messages

end GrantHistory

/-- A thread whose next step neither tells nor takes has told and taken the same after every move. -/
theorem History.books_after (h : History) (m : Move) (hx : h.world.threads[t]? = some x)
    (hquiet : ∀ d rest, x.agenda = d :: rest → d.tells? = none ∧ d.takesFrom? = none) :
    (h.after m).toldBy t = h.toldBy t ∧ (h.after m).takesBy t = h.takesBy t := by
  have hothers : ∀ {α : Type} {entries : List (Nat × α)} {u : Nat} (a : α), u ≠ t →
      entriesOf t (entries ++ [(u, a)]) = entriesOf t entries := by
    intro α entries u a hu
    rw [entriesOf_append, entriesOf_singleton, if_neg hu, List.append_nil]
  cases h.enters_after m with
  | nothing htold htakes | begins htold htakes =>
    exact ⟨by rw [Books.toldBy, htold]; rfl, by rw [Books.takesBy, htakes]; rfl⟩
  | tell hy htold htakes =>
    refine ⟨?_, by rw [Books.takesBy, htakes]; rfl⟩
    rw [Books.toldBy, htold]
    apply hothers
    rintro rfl
    cases hy.thread.symm.trans hx
    obtain ⟨htells, -⟩ := hquiet _ _ hy.agenda
    cases htells
  | take hy hd htold htakes =>
    refine ⟨by rw [Books.toldBy, htold]; rfl, ?_⟩
    rw [Books.takesBy, htakes]
    apply hothers
    rintro rfl
    cases hy.thread.symm.trans hx
    rw [(hquiet _ _ hy.agenda).2] at hd
    cases hd

section Takes

variable {h : History} {y : Conn} {d : Duty} {rest : List Duty} {received : Nat} {phase : Poll.Phase}
  {s : Poll.Queue × Poll.Phase}

/-- Where the take of a drain stands, with its connection and the number of messages that the drain brought. -/
def Duty.phase? (w : World) : Duty → Option (Nat × Nat × Poll.Phase)
  | .take c received => some (c, received, .called w.settings.pollTimeout)
  | .wait c received deadline => some (c, received, .parked deadline)
  | _ => none

theorem History.takes_step (hready : h.world.ready t = true) (hx : h.world.Next t x d rest) :
    (h.after (.step t)).takes = h.takes ++ ((h.world.takes? x d).map (Prod.mk t)).toList := by
  rw [after_step_eq hready hx]
  rfl

/-- The take of a drain may go on with any step that a take can do next: a thread that prefers the reason for it
does so. If that is because the client has given up, nothing is taken. -/
theorem History.takes_any (hx : h.world.Next t x d rest) (hy : h.world.conn? c = some y)
    (hd : d.phase? h.world = some (c, received, phase)) (hs : y.queue.Steps h.world.now x.cancelled phase s) :
    let s' := s.1.go h.world.now x.cancelled s.2
    ∃ reason take, s'.2.take? = some take ∧
      let k := (h.after (.prefer t reason)).after (.step t)
      k.world.agenda t = .ofTake c received take :: rest ∧ k.world.conn? c = some { y with queue := s'.1 } ∧
      (s.2 = .returned none → k.takes = h.takes ∧ k.world.pendingOf c = h.world.pendingOf c) := by
  intro s'
  have hnext : ∀ reason, (h.after (.prefer t reason)).world.Next t { x with preferred := reason } d rest :=
    fun reason => ⟨World.threads_updateThread_self hx.thread _, hx.agenda⟩
  suffices hgoes : ∃ reason r, (h.after (.prefer t reason)).world.ready t = true ∧
      d.Takes (h.after (.prefer t reason)).world { x with preferred := reason } y.queue c received r ∧
      s'.1 = r.1 ∧ s'.2.take? = some r.2 by
    obtain ⟨reason, r, hready, htakes, hqueue, htake⟩ := hgoes
    have hconn : (h.after (.prefer t reason)).world.conn? c = some y := hy
    obtain ⟨hagenda, hafter⟩ := (hnext reason).taken hconn htakes
    refine ⟨reason, r.2, htake, ?_⟩
    intro k
    have hworld : k.world = (h.after (.prefer t reason)).world.stepThread t := History.world_after_step hready
    rw [← hworld] at hagenda hafter
    refine ⟨hagenda, hqueue ▸ hafter, fun hgiven => ?_⟩
    have hs' : s' = s := by
      show s.1.go h.world.now x.cancelled s.2 = s
      rw [hgiven]
      exact Prod.ext rfl hgiven.symm
    have hnone : r.2 = .done none := by
      rw [hs', hgiven] at htake
      exact (Option.some.inj htake).symm
    constructor
    · show ((h.after (.prefer t reason)).after (.step t)).takes = _
      rw [History.takes_step hready (hnext reason), htakes.takes? hconn, hnone]
      exact List.append_nil _
    · have hpending : s.1.pending = y.queue.pending := by
        cases hs.yields with
        | abandons hpending => exact hpending
        | hands | goesOn _ hphase => cases hgiven <;> cases hphase
      rw [World.pendingOf, World.pendingOf, hafter, hy, ← hqueue, hs']
      exact hpending
  cases d with
  | take c' received' =>
    cases hd
    cases hs with
    | goes =>
      have hready : (h.after (.prefer t .token)).world.ready t = true := by
        simp only [World.ready, (hnext .token).thread, hx.agenda]
      exact ⟨.token, _, hready, .starts, y.queue.startTake_eq_go _ _ _⟩
  | wait c' received' deadline =>
    cases hd
    cases hs with
    | goes hgoes => cases hgoes
    | @wakes _ reason hreason =>
      have hpreferred := Poll.Queue.reason?_of_wakesFor hreason
      have hready : (h.after (.prefer t reason)).world.ready t = true := by
        have hconn : (h.after (.prefer t reason)).world.conn? c = some y := hy
        simp only [World.ready, (hnext reason).thread, hx.agenda, hconn]
        exact congrArg Option.isSome hpreferred
      exact ⟨reason, _, hready, .resumes deadline, Poll.Queue.resumeTake_eq_go hpreferred⟩
  | _ => cases hd

end Takes

namespace GrantHistory

variable {s : GrantHistory}

/-- A drain that holds its session has told of the first messages of its batch. -/
theorem drains_of_held (hs : Sound s.toBooks s.world) (hx : s.world.threads[t]? = some x)
    (hunlock : .unlock c ∈ x.agenda) (hheld : s.world.HeldBy c t) : s.Drains c t := by
  obtain ⟨o, ho, hcourse⟩ := hs.courses t x hx
  obtain ⟨r, q, n, front, back, taken, rfl, hadmitted, hmessages, htold, htakes, hdrain⟩ :=
    hcourse.drain_of_session hunlock rfl
  obtain ⟨result, rfl⟩ := hdrain.taken_le
  refine ⟨r, q, ho, hadmitted, .holding hx hunlock hheld htold ?_ htakes⟩
  rw [hmessages]
  exact List.prefix_append front back

/-- A drain keeps its request, and the session that it was admitted to. -/
theorem drains_after {r : Request} {q : DrainRequest} (hr : s.origins[t]? = some (some r))
    (hadmitted : Admitted s.world r c q) (houtcome : (s.after m).Outcome c t q.messages) :
    (s.after m).Drains c t := by
  obtain ⟨more, horigins, -⟩ := s.toHistory.origins_after m
  refine ⟨r, q, ?_, ⟨hadmitted.drains, s.toHistory.idOf?_after m hadmitted.session, hadmitted.body⟩, houtcome⟩
  show (s.toHistory.after m).origins[t]? = _
  rw [horigins, List.getElem?_append_left (List.getElem?_eq_some_iff.1 hr).1, hr]

/-- A drain that has let go of its session stays as it is. -/
theorem Drains.finished (h : s.Drains c t) (hx : s.world.threads[t]? = some x) (hagenda : x.agenda = [])
    (m : Move) : (s.after m).Drains c t := by
  obtain ⟨r, q, hr, hadmitted, houtcome⟩ := h
  obtain ⟨y, hy, hya, hstays⟩ := s.toHistory.finished_after hx hagenda m
  obtain ⟨htold', htakes'⟩ := s.toHistory.books_after m hx fun d rest hd => by
    cases hagenda.symm.trans hd
  apply drains_after hr hadmitted
  cases houtcome with
  | holding hx' hunlock =>
    cases hx'.symm.trans hx
    rw [hagenda] at hunlock
    cases hunlock
  | complete hx' _ htold htakes hanswered =>
    cases hx'.symm.trans hx
    refine .complete hy hya (htold'.trans htold) (htakes'.trans htakes) ?_
    rw [hstays.answer]
    exact hanswered.mono hstays.unwritable
  | thrown hx' _ hthrown htold hbatch htakes =>
    cases hx'.symm.trans hx
    exact .thrown hy hya (by rwa [hstays.thrown]) (htold'.trans htold) hbatch (htakes'.trans htakes)

/-- A drain that holds its session goes on holding it until it is done or a handler throws. -/
theorem Drains.held (hs : Sound s.toBooks s.world) (hheld : s.world.Held) (hx : s.world.threads[t]? = some x)
    (hunlock : .unlock c ∈ x.agenda) (ht : s.world.HeldBy c t) (m : Move) : (s.after m).Drains c t := by
  have hs' : Sound (s.after m).toBooks (s.after m).world := hs.after m
  -- as long as it is to let go of the session it is the holder
  have hholds : ∀ {y : Thread}, (s.after m).world.threads[t]? = some y → .unlock c ∈ y.agenda →
      (s.after m).Drains c t := by
    intro y hy hunlock'
    rcases heldBy_after hs hheld m ht with hkept | ⟨z, hz, hnil⟩
    · exact drains_of_held hs' hy hunlock' hkept
    · cases hz.symm.trans hy
      rw [hnil] at hunlock'
      cases hunlock'
  rcases s.toHistory.thread_after hx m with ⟨y, hy, hstays⟩ | ⟨d, rest, hagenda, hworld⟩
  · apply hholds hy
    rcases hstays.agenda with hsame | ⟨-, d, -, hmore⟩
    · rwa [hsame]
    · rw [hmore]
      exact List.mem_cons_of_mem d hunlock
  · obtain ⟨o, ho, hcourse⟩ := hs.courses t x hx
    obtain ⟨r, q, n, front, back, taken, rfl, hadmitted, hmessages, htold, htakes, hdrain⟩ :=
      hcourse.drain_of_session hunlock rfl
    rw [hagenda] at hdrain
    -- the books of the thread, if its step neither tells nor takes
    have hbooks : d.tells? = none → d.takesFrom? = none →
        (s.after m).toldBy t = front.map (Prod.mk c) ∧ (s.after m).takesBy t = taken.map (Prod.mk c) := by
      intro htells htakesFrom
      obtain ⟨htold', htakes'⟩ := s.toHistory.books_after m hx fun d' rest' hd' => by
        rw [hagenda] at hd'
        cases hd'
        exact ⟨htells, htakesFrom⟩
      exact ⟨htold'.trans htold, htakes'.trans htakes⟩
    by_cases hd : d = .unlock c
    · subst hd
      obtain ⟨rfl, rfl, result, rfl, hanswered⟩ := hdrain.of_unlock
      obtain ⟨htold', htakes'⟩ := hbooks rfl rfl
      have hz : (s.after m).world.threads[t]? = some { x with agenda := [] } := by
        show (s.toHistory.after m).world.threads[t]? = _
        rw [hworld, World.Next.step_eq ⟨hx, hagenda⟩]
        exact World.threads_pop hx []
      rw [List.append_nil] at hmessages
      exact drains_after ho hadmitted (.complete hz rfl (by rw [hmessages, htold']) htakes' hanswered)
    · obtain ⟨y, hy, hgoes⟩ := World.Next.goes ⟨hx, hagenda⟩
      rw [← hworld] at hy
      rcases hgoes.agenda with ⟨duties, hya, -⟩ | ⟨hside, hthrown, hya⟩
      · apply hholds hy
        rw [hagenda] at hunlock
        rw [hya]
        exact List.mem_append_right duties (List.mem_of_ne_of_mem (Ne.symm hd) hunlock)
      · -- a handler has thrown before the drain has taken anything
        have htells := (Duty.side_facts hside s.world s.world t x).1
        obtain ⟨htold', htakes'⟩ := hbooks htells (Duty.takesFrom?_of_side hside)
        rw [hdrain.taken_of_side hside] at htakes'
        refine drains_after ho hadmitted (.thrown hy hya hthrown htold' ?_ htakes')
        rw [hmessages]
        exact List.prefix_append front back

/-- What holds after every move. -/
structure InTurn (s : GrantHistory) : Prop where
  sound : Sound s.toBooks s.world
  held : s.world.Held
  /-- No thread takes hold of a connection twice. -/
  once : (s.grants.map Prod.snd).Nodup
  /-- The holder of a connection took hold of it last. -/
  current : ∀ c t, s.world.HeldBy c t → (s.drainsOf c).getLast? = some t
  told : Serial s.grants s.told
  takes : Serial s.grants s.takes
  drains : ∀ c t, (c, t) ∈ s.grants → s.Drains c t

namespace InTurn

section

variable (h : s.InTurn)
include h

theorem nodup_drainsOf (c : Nat) : (s.drainsOf c).Nodup :=
  h.once.sublist (entriesOf_sublist c s.grants)

/-- A thread that takes hold of a connection has held none before. -/
theorem fresh (hgrant : s.world.grant? m = some (c, t)) (d : Nat) : (d, t) ∉ s.grants := by
  intro hmem
  obtain ⟨rfl, hready, x, rest, hx, hagenda⟩ := World.grant?_eq_some.1 hgrant
  obtain ⟨r, q, -, -, houtcome⟩ := h.drains d t hmem
  cases houtcome with
  | holding hx' hunlock hheld =>
    cases hx'.symm.trans hx
    obtain ⟨o, -, hcourse⟩ := h.sound.courses t _ hx
    obtain ⟨_, _, _, hdrain⟩ := hcourse.drain hagenda rfl
    rw [← hagenda] at hdrain
    -- it would drain the same connection, of which it is the holder
    obtain hside | hsame := hdrain.session _ hunlock
    · cases hside
    · cases hsame
      exact World.not_heldBy_of_ready hready ⟨hx, hagenda⟩ hheld
  | complete hx' hnil | thrown hx' hnil =>
    cases hx'.symm.trans hx
    cases hnil.symm.trans hagenda

/-- The holder of a connection is the last one to have taken hold of it, also after the next move. -/
theorem current_after (m : Move) (ht : s.world.HeldBy c t) : ((s.after m).drainsOf c).getLast? = some t := by
  have hsame : (s.after m).drainsOf c = s.drainsOf c := by
    show entriesOf c (s.grants ++ (s.world.grant? m).toList) = _
    rw [entriesOf_append]
    cases hgrant : s.world.grant? m with
    | none => simp [drainsOf]
    | some e =>
      obtain ⟨c', t'⟩ := e
      obtain ⟨-, hready, y, rest, hy⟩ := World.grant?_eq_some.1 hgrant
      have hne : c' ≠ c := by
        rintro rfl
        exact World.not_heldBy_of_ready hready hy ht
      rw [Option.toList_some, entriesOf_singleton, if_neg hne, List.append_nil, drainsOf]
  rw [hsame]
  exact h.current c t ht

theorem once_after (m : Move) : ((s.after m).grants.map Prod.snd).Nodup := by
  show ((s.grants ++ (s.world.grant? m).toList).map Prod.snd).Nodup
  cases hgrant : s.world.grant? m with
  | none => simpa using h.once
  | some e =>
    obtain ⟨c, t⟩ := e
    rw [Option.toList_some, List.map_append, List.map_singleton, List.nodup_append]
    refine ⟨h.once, List.nodup_singleton t, ?_⟩
    rintro u hu u' hu' rfl
    rw [List.mem_singleton] at hu'
    obtain ⟨⟨d, _⟩, hmem, rfl⟩ := List.mem_map.1 hu
    cases hu'
    exact h.fresh hgrant d hmem

/-- Grants do not disturb what has been entered. -/
theorem serial_grants (m : Move) {α : Type} {entries : List (Nat × Nat × α)}
    (hentries : Serial s.grants entries) : Serial (s.after m).grants entries := by
  show Serial (s.grants ++ (s.world.grant? m).toList) entries
  cases hgrant : s.world.grant? m with
  | none => simpa using hentries
  | some e =>
    obtain ⟨c, t⟩ := e
    exact hentries.grant (h.fresh hgrant)

/-- An entry is made by the holder of the connection. -/
theorem serial_after (m : Move) {α : Type} {entries : List (Nat × Nat × α)}
    (hentries : Serial s.grants entries) {d : Duty} {rest : List Duty}
    (hx : s.world.Next t x d rest) (hc : d.session? = some c)
    (hd : d.grips = false) (a : α) : Serial (s.after m).grants (entries ++ [(t, c, a)]) := by
  obtain ⟨o, -, hcourse⟩ := h.sound.courses t x hx.thread
  have hholds := hcourse.holds_of_session hx.agenda hc hd
  have hnodup : ((s.after m).drainsOf c).Nodup := (h.once_after m).sublist (entriesOf_sublist c _)
  exact (h.serial_grants m hentries).enter (h.current_after m (h.held t x c hx.thread hholds)) hnodup a

/-- A thread that has just taken hold of a connection. -/
theorem drains_of_grant (hgrant : s.world.grant? m = some (c, t)) : (s.after m).Drains c t := by
  obtain ⟨rfl, hready, x, rest, hx, hagenda⟩ := World.grant?_eq_some.1 hgrant
  obtain ⟨o, -, hcourse⟩ := h.sound.courses t x hx
  obtain ⟨n, back, taken, hdrain⟩ := hcourse.drain hagenda rfl
  obtain rfl := hdrain.of_lock
  have hz : (s.after (.step t)).world.threads[t]? =
      some { x with agenda := [.deliver c back, .take c n, .unlock c] } := by
    show (s.toHistory.after (.step t)).world.threads[t]? = _
    rw [History.world_after_step hready, World.Next.step_eq ⟨hx, hagenda⟩]
    exact World.threads_pop hx _
  have hheld : (s.after (.step t)).world.Held := held_after h.sound h.held _
  exact drains_of_held (h.sound.after _) hz (by simp) (hheld t _ c hz ⟨by simp, by simp⟩)

/-- Every move keeps the turns. -/
theorem after (m : Move) : (s.after m).InTurn where
  sound := h.sound.after m
  held := held_after h.sound h.held m
  once := h.once_after m
  current c t ht := by
    rcases heldBy_of_after s.toHistory m ht with hkept | hgrant
    · exact h.current_after m hkept
    · show (entriesOf c (s.grants ++ (s.world.grant? m).toList)).getLast? = some t
      rw [hgrant, Option.toList_some, entriesOf_append, entriesOf_singleton, if_pos rfl, List.getLast?_concat]
  told := by
    show Serial _ (s.toHistory.after m).told
    cases s.toHistory.enters_after m with
    | nothing htold | begins htold | take _ _ htold =>
      rw [htold]
      exact h.serial_grants m h.told
    | tell hx htold =>
      rw [htold]
      exact h.serial_after m h.told hx rfl rfl _
  takes := by
    show Serial _ (s.toHistory.after m).takes
    cases s.toHistory.enters_after m with
    | nothing _ htakes | begins _ htakes | tell _ _ htakes =>
      rw [htakes]
      exact h.serial_grants m h.takes
    | take hx hd _ htakes =>
      rw [htakes]
      exact h.serial_after m h.takes hx (Duty.session?_of_takesFrom? hd) (Duty.grips_of_takesFrom? hd) _
  drains c t hmem := by
    rcases List.mem_append.1 hmem with hold | hnew
    · obtain ⟨r, q, -, -, houtcome⟩ := h.drains c t hold
      cases houtcome with
      | holding hx hunlock hheld => exact .held h.sound h.held hx hunlock hheld m
      | complete hx hagenda | thrown hx hagenda => exact (h.drains c t hold).finished hx hagenda m
    · exact h.drains_of_grant (Option.mem_toList.1 hnew)

end

theorem new (settings : Settings) (limiter : Option Limiter) (ids : Ids) :
    InTurn { toHistory := .new settings limiter ids } where
  sound := .new settings limiter ids
  held := held_new settings limiter ids
  once := List.nodup_nil
  current c t ht := by
    obtain ⟨f, hf, -⟩ := ht
    cases hf
  told := .nil
  takes := .nil
  drains c t hmem := by cases hmem

end InTurn

theorem inTurn_run (settings : Settings) (limiter : Option Limiter) (ids : Ids) (moves : List Move) :
    (run settings limiter ids moves).InTurn := by
  induction moves using List.reverseRecOn with
  | nil => exact .new settings limiter ids
  | append_singleton front m ih =>
    rw [run_concat]
    exact ih.after m

/-- Drains of a session are served one after another, whatever is under way at once. In the order in which they
took hold of the session the messages told of are those of one drain after another, and so is what was taken,
followed by what still waits; a drain that has not taken anything, or whose client has given up, counts for
nothing. Every drain but the last, which may be the holder, has told of its whole batch and has answered with
what it took, unless a handler has thrown. A take may start or go on with every step that is open to it, and if
it returns because its client has given up, what waits stays. -/
theorem drains_in_turn (settings : Settings) (limiter : Option Limiter) (ids : Ids) (moves : List Move) (c : Nat) :
    let s := run settings limiter ids moves
    (s.drainsOf c).Nodup ∧ (∀ t ∈ s.drainsOf c, s.Drains c t) ∧
    (∀ t, s.world.HeldBy c t → (s.drainsOf c).getLast? = some t) ∧
    s.toldFor c = (s.drainsOf c).flatMap (fun t => entriesOf c (s.toldBy t)) ∧
    s.acceptedBy c =
      ((s.drainsOf c).flatMap fun t => entriesOf c (s.takesBy t)).flatten ++ s.world.pendingOf c ∧
    ∀ t x d rest y received phase r, s.world.Next t x d rest → s.world.conn? c = some y →
      d.phase? s.world = some (c, received, phase) → y.queue.Steps s.world.now x.cancelled phase r →
      let r' := r.1.go s.world.now x.cancelled r.2
      ∃ reason take, r'.2.take? = some take ∧
        let k := run settings limiter ids (moves ++ [.prefer t reason, .step t])
        k.world.agenda t = .ofTake c received take :: rest ∧ k.world.conn? c = some { y with queue := r'.1 } ∧
        (r.2 = .returned none → k.takes = s.takes ∧ k.world.pendingOf c = s.world.pendingOf c) := by
  intro s
  have h : s.InTurn := inTurn_run settings limiter ids moves
  refine ⟨h.nodup_drainsOf c, fun t ht => h.drains c t (mem_entriesOf.1 ht), h.current c, h.told.whole c, ?_,
    fun t x d rest y received phase r hx hy hd hr => ?_⟩
  · rw [h.sound.conserved c]
    exact congrArg (·.flatten ++ s.world.pendingOf c) (h.takes.whole c)
  · obtain ⟨reason, take, htake, hk⟩ := History.takes_any (h := s.toHistory) hx hy hd hr
    refine ⟨reason, take, htake, ?_⟩
    rw [List.append_cons, run_concat, run_concat]
    exact hk

/-- A drain waits, a message is sent, and the client gives up before the drain has seen the message. -/
def abandonedTake : List Move :=
  .request { method := "POST", header := {}, body := [] } :: Watch.steps 0 4 ++
    .request polling :: Watch.steps 1 4 ++ [.send 0 "a", .step 2, .cancel 1]

theorem drains_in_turn_abandonedTake :
    let s := run {} none {} abandonedTake
    s.drainsOf 0 = [1] ∧ s.acceptedBy 0 = ["a"] ∧ s.takes = [] ∧
      ∃ reason rest, let k := run {} none {} (abandonedTake ++ [.prefer 1 reason, .step 1])
        k.world.agenda 1 = .reply 0 0 none :: rest ∧ k.takes = [] ∧ k.world.pendingOf 0 = ["a"] := by
  intro s
  have hrun : s.drainsOf 0 = [1] ∧ s.acceptedBy 0 = ["a"] ∧ s.takes = [] ∧ s.world.pendingOf 0 = ["a"] ∧
      (s.world.conn? 0).isSome = true ∧
      (s.world.threads[1]?.bind fun x => x.agenda.head?.bind fun d => (d.phase? s.world).map (Prod.mk x.cancelled)) =
        some (true, 0, 0, .parked 25000000000) := by
    decide +kernel
  obtain ⟨hdrains, haccepted, htakes, hpending, hconn, hphase⟩ := hrun
  obtain ⟨y, hy⟩ := Option.isSome_iff_exists.1 hconn
  obtain ⟨x, hx, hphase⟩ := Option.bind_eq_some_iff.1 hphase
  obtain ⟨d, hd, hphase⟩ := Option.bind_eq_some_iff.1 hphase
  obtain ⟨phase, hphase, hsome⟩ := Option.map_eq_some_iff.1 hphase
  obtain ⟨hcancelled, rfl⟩ := Prod.mk.inj hsome
  obtain ⟨rest, hagenda⟩ := List.head?_eq_some_iff.1 hd
  -- the message is there, but the take goes on because its client has given up
  have hwakes : y.queue.Steps s.world.now x.cancelled (.parked 25000000000)
      (y.queue.wake s.world.now 25000000000 .cancelled) := .wakes hcancelled
  obtain ⟨-, -, -, -, -, hgoes⟩ := drains_in_turn {} none {} abandonedTake 0
  obtain ⟨reason, take, htake, hafter, -, hstays⟩ :=
    hgoes 1 x d rest y 0 _ _ ⟨hx, hagenda⟩ hy hphase hwakes
  obtain ⟨hsame, hkept⟩ := hstays rfl
  cases htake
  exact ⟨hdrains, haccepted, htakes, reason, rest, hafter, hsame.trans htakes, hkept.trans hpending⟩

end GrantHistory

end PollSocket.Server
