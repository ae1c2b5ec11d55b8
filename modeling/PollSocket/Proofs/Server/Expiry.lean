import PollSocket.Proofs.Server.Timing

set_option autoImplicit false

/-!
# Sessions with a drain do not expire

A watch is a history with a clock that passes no deadline of a drain without the drain going on, and that
stands still while a drain can go on (`World.lets`). Everything else may take its time: sweeps come at any
moment and close what they have found whenever they get to it.

A session is drained by threads that are still to let go of it. As long as there is one and nobody has asked
to close the session, the session has not lapsed. A session that a sweep is to close has lapsed, so that no
drain is admitted to it any more (`Timely`). Every take ends within the poll timeout (`Timely.stamps`), for
when its time is up its thread can go on until it has answered (`Timely.ends_of_due`).

What the rules for a configuration say about timeouts is all that the invariant needs
(`timeouts_of_validate`), so that `waiting_drains_live` holds of every configuration that keeps them.
-/

namespace PollSocket.Server

variable {d e : Duty} {deadline now : Int} {rest : List Duty} {m : Move} {c received t u : Nat}
  {result : Option (List String)} {id : String} {x : Thread} {w : World}

/-! ## Watches -/

/-- When a thread did something for a connection. -/
structure Stamp where
  thread : Nat
  conn : Nat
  time : Int
  deriving DecidableEq

/-- The duty lets go of a connection. -/
def Duty.isUnlock : Duty → Bool
  | .unlock _ => true
  | _ => false

theorem Duty.isWait_of_side (h : d.side = true) : d.isWait = false := by
  cases d with
  | wait => cases h
  | _ => rfl

/-- The connection from which a duty starts to take. -/
def Duty.starts? : Duty → Option Nat
  | .take c _ => some c
  | _ => none

/-- The connection for whose messages a duty waits. -/
def Duty.waits? : Duty → Option Nat
  | .wait c _ _ => some c
  | _ => none

/-- The connection whose drain a duty answers, or abandons if the caller has given up. -/
def Duty.ends? : Duty → Option Nat
  | .reply c _ _ => some c
  | _ => none

namespace World

/-- A thread drains a session: it is still to let go of it. -/
def drains (w : World) (t : Nat) : Bool := (w.agenda t).any Duty.isUnlock

/-- The connection from which a thread takes, if it is held by that. -/
def waits? (w : World) (t : Nat) : Option Nat := (w.first? t).bind Duty.waits?

/-- Time may go on to `now`: no drain can go on before that. -/
def lets (w : World) (now : Int) : Bool :=
  (List.range w.threads.length).all fun t =>
    !w.drains t || (!w.ready t && (w.threads[t]?.bind Thread.deadline?).all fun deadline => now ≤ deadline)

/-- The connection that a move asks to close, other than for being expired. -/
def asks? (w : World) : Move → Option Nat
  | .close c => some c
  | .step t => if w.ready t then w.threads[t]?.bind fun x => x.agenda.head?.bind (Duty.asks? x) else none
  | _ => none

/-- The stamp of a move that does a duty of a kind. -/
def stamp? (w : World) (kind : Duty → Option Nat) : Move → Option Stamp
  | .step t => if w.ready t then ((w.first? t).bind kind).map fun c => ⟨t, c, w.now⟩ else none
  | _ => none

end World

/-- A history with what was asked for and when. -/
structure Watch extends History where
  /-- Connections that somebody has asked to close. -/
  asked : List Nat := []
  /-- Takes that have started. -/
  starts : List Stamp := []
  /-- Takes that were answered or abandoned. -/
  ends : List Stamp := []

namespace Watch

/-- The move is possible. -/
def admits (k : Watch) : Move → Bool
  | .clock now => k.world.lets now
  | _ => true

/-- The watch once a move has happened. -/
def enter (k : Watch) (m : Move) : Watch where
  toHistory := k.toHistory.after m
  asked := k.asked ++ (k.world.asks? m).toList
  starts := k.starts ++ (k.world.stamp? Duty.starts? m).toList
  ends := k.ends ++ (k.world.stamp? Duty.ends? m).toList

/-- The watch after a move. -/
def after (k : Watch) (m : Move) : Watch := if k.admits m then k.enter m else k

/-- The watch of a server that a configuration describes. -/
def new (c : ServerConfig) (ids : Ids) : Watch := { toHistory := { world := .ofConfig c ids } }

def run (c : ServerConfig) (ids : Ids) (moves : List Move) : Watch := moves.foldl after (new c ids)

/-- A thread goes on `n` times. -/
def steps (t n : Nat) : List Move := List.replicate n (.step t)

theorem run_concat (c : ServerConfig) (ids : Ids) (moves : List Move) (m : Move) :
    run c ids (moves ++ [m]) = (run c ids moves).after m :=
  List.foldl_append

end Watch

/-! ## Tables -/

section Tables

variable {table : List (String × Nat)}

theorem lookup_of_mem (hkeys : (table.map Prod.fst).Nodup) (h : (id, c) ∈ table) :
    table.lookup id = some c := by
  induction table with
  | nil => cases h
  | cons e more ih =>
    rw [List.map_cons, List.nodup_cons] at hkeys
    rcases List.mem_cons.1 h with rfl | h
    · simp
    · have hne : id ≠ e.1 := by
        intro heq
        exact hkeys.1 (heq ▸ List.mem_map_of_mem h)
      rw [List.lookup_cons, beq_false_of_ne hne]
      exact ih hkeys.2 h

theorem mem_putEntry {e : String × Nat} (h : e ∈ putEntry id c table) : e = (id, c) ∨ e ∈ table := by
  induction table with
  | nil => exact Or.inl (List.mem_singleton.1 h)
  | cons e' more ih =>
    rw [putEntry] at h
    split at h
    · exact (List.mem_cons.1 h).imp_right (List.mem_cons_of_mem e')
    · rcases List.mem_cons.1 h with rfl | h
      · exact Or.inr List.mem_cons_self
      · exact (ih h).imp_right (List.mem_cons_of_mem e')

/-- A table that has an id once has it once after another entry is put into it. -/
theorem nodup_putEntry (hkeys : (table.map Prod.fst).Nodup) (id : String) (c : Nat) :
    ((putEntry id c table).map Prod.fst).Nodup := by
  induction table with
  | nil => simp [putEntry]
  | cons e more ih =>
    rw [List.map_cons, List.nodup_cons] at hkeys
    rw [putEntry]
    split
    next he =>
      rw [List.map_cons, List.nodup_cons, ← eq_of_beq he]
      exact hkeys
    next he =>
      rw [List.map_cons, List.nodup_cons]
      refine ⟨?_, ih hkeys.2⟩
      intro hmem
      obtain ⟨e', he', hkey⟩ := List.mem_map.1 hmem
      rcases mem_putEntry he' with rfl | he'
      · exact he (beq_iff_eq.2 hkey.symm)
      · exact hkeys.1 (hkey ▸ List.mem_map_of_mem he')

theorem nodup_dropEntry (hkeys : (table.map Prod.fst).Nodup) (id : String) :
    ((dropEntry id table).map Prod.fst).Nodup :=
  hkeys.sublist (List.filter_sublist.map Prod.fst)

end Tables

/-- Both tables are the same, and have an id once. -/
structure World.Paired (w : World) : Prop where
  tables : w.sessions = w.online
  keys : (w.sessions.map Prod.fst).Nodup

theorem World.Paired.of_steady {v : World} (h : w.Paired) (hsteady : w.Steady v) : v.Paired :=
  ⟨by rw [hsteady.sessions, hsteady.online, h.tables], by rw [hsteady.sessions]; exact h.keys⟩

theorem World.Paired.step {v : World} (h : w.Paired) {z : Thread} (hdoes : w.Does t x d rest z v) :
    v.Paired := by
  cases hdoes with
  | plans _ _ _ _ hsteady => exact h.of_steady hsteady
  | opens _ _ _ _ hsessions honline =>
    exact ⟨by rw [hsessions, honline, h.tables], by rw [hsessions]; exact nodup_putEntry h.keys _ _⟩
  | closes _ _ _ _ _ _ hsessions honline =>
    exact ⟨by rw [hsessions, honline, h.tables], by rw [hsessions]; exact nodup_dropEntry h.keys _⟩
  | locks _ _ _ _ hsessions honline | unlocks _ _ _ _ hsessions honline
    | throws _ _ _ _ hsessions honline =>
    exact ⟨by rw [hsessions, honline, h.tables], by rw [hsessions]; exact h.keys⟩

/-! ## Drains -/

section Drain

variable {n : Nat} {unwritable : Bool} {back : List String} {taken : List (List String)} {answer : Answer}
  {agenda : List Duty}

variable (h : Drain c n unwritable back taken answer agenda)
include h

theorem Drain.unlock_mem (hne : agenda ≠ []) : .unlock c ∈ agenda := by
  cases h with
  | done => exact absurd rfl hne
  | _ => simp

/-- A drain that waits, or is to answer, has nothing else to do before it lets go. -/
theorem Drain.eq_of_mem {c' : Nat} (hmem : e ∈ agenda)
    (he : (∃ n deadline, e = .wait c' n deadline) ∨ ∃ n result, e = .reply c' n result) :
    agenda = [e, .unlock c'] := by
  cases h with
  | delivering _ hside =>
    rcases List.mem_append.1 hmem with hmem | hmem
    · have hlater := hside _ hmem
      rcases he with ⟨_, _, rfl⟩ | ⟨_, _, rfl⟩ <;> cases hlater
    · rcases he with ⟨_, _, rfl⟩ | ⟨_, _, rfl⟩ <;> simp at hmem
  | _ => rcases he with ⟨_, _, rfl⟩ | ⟨_, _, rfl⟩ <;> simp_all

end Drain

/-- A thread that has a session left to drain is a drain of a connection that exists. -/
theorem Sound.drain {b : Books} (hs : Sound b w) (he : e ∈ w.agenda t) (hc : e.session? = some c) :
    ∃ x n back taken y, w.threads[t]? = some x ∧ w.agenda t = x.agenda ∧
      Drain c n x.unwritable back taken x.answer x.agenda ∧ w.conn? c = some y := by
  obtain ⟨x, hx⟩ := World.thread_of_mem he
  rw [World.agenda_of_some hx] at he
  obtain ⟨o, -, hcourse⟩ := hs.courses t x hx
  obtain ⟨r, q, n, front, back, taken, -, hadmitted, -, -, -, hdrain⟩ := hcourse.drain_of_session he hc
  obtain ⟨y, hy, -⟩ := Option.map_eq_some_iff.1 hadmitted.session
  exact ⟨x, n, back, taken, y, hx, World.agenda_of_some hx, hdrain, hy⟩

section Sound

variable {b : Books} (hs : Sound b w)
include hs

/-- Whoever drains a session is still to let go of it. -/
theorem Sound.unlock_mem (he : e ∈ w.agenda t) (hc : e.session? = some c) : .unlock c ∈ w.agenda t := by
  obtain ⟨x, n, back, taken, y, -, hlist, hdrain, -⟩ := hs.drain he hc
  rw [hlist] at he ⊢
  exact hdrain.unlock_mem (List.ne_nil_of_mem he)

theorem Sound.agenda_of_wait (hwait : .wait c received deadline ∈ w.agenda t) :
    ∃ x y, w.Next t x (.wait c received deadline) [.unlock c] ∧ w.conn? c = some y := by
  obtain ⟨x, n, back, taken, y, hx, hlist, hdrain, hy⟩ := hs.drain hwait rfl
  exact ⟨x, y, ⟨hx, hdrain.eq_of_mem (hlist ▸ hwait) (.inl ⟨_, _, rfl⟩)⟩, hy⟩

theorem Sound.agenda_of_reply (hreply : .reply c received result ∈ w.agenda t) :
    ∃ x, w.Next t x (.reply c received result) [.unlock c] := by
  obtain ⟨x, n, back, taken, y, hx, hlist, hdrain, -⟩ := hs.drain hreply rfl
  exact ⟨x, hx, hdrain.eq_of_mem (hlist ▸ hreply) (.inr ⟨_, _, rfl⟩)⟩

end Sound

namespace World

variable {v : World}

theorem drains_of_mem (h : .unlock c ∈ w.agenda t) : w.drains t = true :=
  List.any_eq_true.2 ⟨_, h, rfl⟩

/-- A thread goes on, unless it is to take hold of a session or waits. -/
theorem Next.ready (hx : w.Next t x d rest)
    (hlock : d.isLock = false) (hwait : d.isWait = false) : w.ready t = true := by
  unfold World.ready
  rw [hx.thread]
  dsimp only
  rw [hx.agenda]
  cases d with
  | lock => cases hlock
  | wait => cases hwait
  | _ => rfl

/-- What the clock waits for. -/
theorem lets_spec (h : w.lets now = true) (hdrains : w.drains t = true) (hx : w.threads[t]? = some x) :
    w.ready t = false ∧ ∀ deadline, Thread.deadline? x = some deadline → now ≤ deadline := by
  have hlt : t < w.threads.length := (List.getElem?_eq_some_iff.1 hx).1
  have hall := List.all_eq_true.1 h t (List.mem_range.2 hlt)
  rw [hdrains, hx, Bool.not_true, Bool.false_or, Bool.and_eq_true, Bool.not_eq_true'] at hall
  refine ⟨hall.1, ?_⟩
  intro deadline hdeadline
  simpa [hdeadline] using hall.2

/-- What is to be closed was to be closed before, or somebody has asked for it now. -/
theorem doomed_before (hx : w.Next t x d rest)
    (he : e ∈ (w.stepThread t).agenda u) (hc : c ∈ e.dooms) :
    (∃ v, ∃ e' ∈ w.agenda v, c ∈ e'.dooms) ∨ d.asks? x = some c := by
  by_cases hut : u = t
  · subst hut
    rcases hx.beats.agenda e he with hrest | hplanned
    · left
      refine ⟨u, e, ?_, hc⟩
      exact hx.mem_rest hrest
    · exact (hplanned.dooms c hc).imp_left fun hd => ⟨u, d, hx.mem, hd⟩
  · rw [hx.agenda_other hut] at he
    exact Or.inl ⟨u, e, he, hc⟩

/-- A session that can be drained has not lapsed. -/
theorem not_lapsed_of_liveSession? (h : w.liveSession? id = some c) : w.lapsed c = false := by
  unfold liveSession? at h
  split at h
  · split at h
    next y hy =>
      split at h
      · cases h
      next hexpired =>
        cases h
        rw [lapsed, hy]
        exact Bool.eq_false_iff.2 hexpired
    next => cases h
  · cases h

/-- A sweep finds only sessions that have lapsed. -/
theorem Paired.lapsed (h : w.Paired) (hc : c ∈ w.expiredConns) : w.lapsed c = true := by
  unfold expiredConns at hc
  rw [List.mem_filterMap] at hc
  obtain ⟨⟨id, d⟩, hmem, hfound⟩ := hc
  dsimp only at hfound
  have hlookup : w.online.lookup id = some d := h.tables ▸ lookup_of_mem h.keys hmem
  split at hfound
  next y hy =>
    split at hfound
    next hexpired =>
      cases hlookup.symm.trans hfound
      rw [World.lapsed, hy]
      exact hexpired
    next => cases hfound
  next => cases hfound

end World

/-- While the clock may go on, a drain that is past the lock waits. -/
theorem Sound.waits_of_holds {b : Books} (hs : Sound b w) (hlets : w.lets now = true)
    (hx : w.threads[t]? = some x) (hholds : x.Holds c) :
    ∃ received deadline, .wait c received deadline ∈ w.agenda t ∧ now ≤ deadline := by
  have hagenda := World.agenda_of_some hx
  have hmem : .unlock c ∈ w.agenda t := hagenda ▸ hholds.1
  obtain ⟨hready, hdeadline⟩ := World.lets_spec hlets (World.drains_of_mem hmem) hx
  obtain ⟨x', n, back, taken, y, hx', -, hdrain, hy⟩ := hs.drain hmem rfl
  obtain rfl := Option.some.inj (hx'.symm.trans hx)
  have hnot : ∀ {d : Duty} {rest : List Duty}, x'.agenda = d :: rest → d.isLock = false → d.isWait = false →
      False := by
    intro d rest hd hlock hwait
    rw [World.Next.ready ⟨hx, hd⟩ hlock hwait] at hready
    cases hready
  have hhead := hholds.2
  rw [hagenda]
  -- all stages but one go on at once
  generalize x'.answer = answer at hdrain
  generalize hlist : x'.agenda = agenda at hdrain hhead ⊢
  cases hdrain with
  | locking => exact absurd rfl hhead
  | @delivering _ duties hside =>
    cases duties with
    | nil => exact (hnot hlist rfl rfl).elim
    | cons e more =>
      have he := hside e List.mem_cons_self
      exact (hnot hlist (Duty.isLock_of_side he) (Duty.isWait_of_side he)).elim
  | waiting deadline =>
    refine ⟨n, deadline, List.mem_cons_self, hdeadline deadline ?_⟩
    rw [World.Thread.deadline?, hlist]
  | done =>
    rw [hagenda, hlist] at hmem
    cases hmem
  | _ => exact (hnot hlist rfl rfl).elim

/-! ## The invariant -/

namespace Watch

variable {poll session : Int} {k : Watch}

/-- A take that has started was answered or abandoned in time. -/
def Ended (poll : Int) (k : Watch) (s : Stamp) : Prop :=
  ∃ e ∈ k.ends, e.thread = s.thread ∧ e.conn = s.conn ∧ s.time ≤ e.time ∧ e.time ≤ s.time + poll

/-- A take that has started waits until its time is up, or is about to be answered. -/
def Underway (poll : Int) (k : Watch) (s : Stamp) : Prop :=
  k.world.now ≤ s.time + poll ∧ ∃ received,
    .wait s.conn received (s.time + poll) ∈ k.world.agenda s.thread ∨
      ∃ result, .reply s.conn received result ∈ k.world.agenda s.thread

/-- What holds of a server after every move, with the poll timeout and the session timeout. -/
structure Timely (poll session : Int) (k : Watch) : Prop where
  sound : Sound k.toBooks k.world
  gripped : k.world.Gripped
  paired : k.world.Paired
  pollTimeout : k.world.settings.pollTimeout = poll
  sessionTimeout : k.world.settings.sessionTimeout = session
  pulses : ∀ (c : Nat) (p : Pulse), k.world.pulses[c]? = some p → p.patience = session ∧ p.lastActivity ≤ k.world.now
  /-- A take waits no longer than the poll timeout, and its session was drained when it started. -/
  waits : ∀ t c received deadline, .wait c received deadline ∈ k.world.agenda t →
    k.world.now ≤ deadline ∧ (∃ p, k.world.pulses[c]? = some p ∧ deadline - poll ≤ p.lastActivity) ∧
      ⟨t, c, deadline - poll⟩ ∈ k.starts
  /-- A session with a drain has not lapsed. -/
  live : ∀ t c, .unlock c ∈ k.world.agenda t → c ∈ k.asked ∨ k.world.lapsed c = false
  /-- What a sweep is to close has lapsed. -/
  doomed : ∀ t, ∀ d ∈ k.world.agenda t, ∀ c ∈ d.dooms, c ∈ k.asked ∨ k.world.lapsed c = true
  stamps : ∀ s ∈ k.starts, s.time ≤ k.world.now ∧ (Ended poll k s ∨ Underway poll k s)

namespace Timely

section

variable (h : Timely poll session k)
include h

/-- A session that somebody drains is not one that a sweep is to close. -/
theorem not_doomed (hc : c ∉ k.asked) (hunlock : .unlock c ∈ k.world.agenda t)
    (hd : d ∈ k.world.agenda u) : c ∉ d.dooms := by
  intro hmem
  have hlive := (h.live t c hunlock).resolve_left hc
  rw [(h.doomed u d hd c hmem).resolve_left hc] at hlive
  cases hlive

/-- A drain that cannot go on waits, or the holder of its session does. -/
theorem waiting_of_blocked (hlets : k.world.lets now = true) (hunlock : .unlock c ∈ k.world.agenda t) :
    ∃ u received deadline, .wait c received deadline ∈ k.world.agenda u ∧ now ≤ deadline := by
  obtain ⟨x, n, back, taken, y, hx, hagenda, -, hy⟩ := h.sound.drain hunlock rfl
  by_cases hlock : x.agenda.head? = some (.lock c)
  · -- the session is held, and the holder is past the lock
    obtain ⟨rest, hrest⟩ : ∃ rest, x.agenda = .lock c :: rest := by
      cases hlist : x.agenda with
      | nil =>
        rw [hlist] at hlock
        cases hlock
      | cons d rest =>
        rw [hlist, List.head?_cons, Option.some.injEq] at hlock
        exact ⟨rest, by rw [hlock]⟩
    have hready := (World.lets_spec hlets (World.drains_of_mem hunlock) hx).1
    rw [World.ready, hx] at hready
    dsimp only at hready
    rw [hrest] at hready
    dsimp only at hready
    rw [hy] at hready
    obtain ⟨u, hu⟩ : ∃ u, y.holder = some u := by
      cases hholder : y.holder with
      | none => simp [hholder] at hready
      | some u => exact ⟨u, rfl⟩
    obtain ⟨z, hz, hholds⟩ := h.gripped c u ⟨y.face, by rw [World.getElem?_faces, hy]; rfl, hu⟩
    exact ⟨u, h.sound.waits_of_holds hlets hz hholds⟩
  · exact ⟨t, h.sound.waits_of_holds hlets hx ⟨hagenda ▸ hunlock, hlock⟩⟩

/-- The clock goes on. -/
theorem clock (hpoll : poll < session) (hlets : k.world.lets now = true) :
    Timely poll session { k with toHistory := k.toHistory.after (.clock now) } := by
  have hlater : k.world.now ≤ max k.world.now now := le_max_left _ _
  -- no deadline of a drain passes
  have hwaiting : ∀ {t c received : Nat} {deadline : Int}, .wait c received deadline ∈ k.world.agenda t →
      max k.world.now now ≤ deadline := by
    intro t c received deadline hwait
    obtain ⟨x, y, hx, -⟩ := h.sound.agenda_of_wait hwait
    have hdrains := World.drains_of_mem (h.sound.unlock_mem hwait rfl)
    have hdeadline := (World.lets_spec hlets hdrains hx.thread).2 deadline (by rw [World.Thread.deadline?, hx.agenda])
    exact max_le (h.waits t c received deadline hwait).1 hdeadline
  have hlapsed : ∀ c, k.world.lapsed c = true →
      ({ k.world with now := max k.world.now now } : World).lapsed c = true := by
    intro c hc
    rw [World.lapsed_eq] at hc ⊢
    exact World.lapsed_mono hlater hc
  exact
    { sound := h.sound.after (.clock now)
      gripped := gripped_after h.sound h.gripped (.clock now)
      paired := ⟨h.paired.tables, h.paired.keys⟩
      __ := h
      pulses c p hp := ⟨(h.pulses c p hp).1, (h.pulses c p hp).2.trans hlater⟩
      waits t c received deadline hwait := ⟨hwaiting hwait, (h.waits t c received deadline hwait).2⟩
      live t c hunlock := by
        rcases h.live t c hunlock with hasked | hlive
        · exact Or.inl hasked
        · -- somebody waits for the session, and has drained it not long ago
          obtain ⟨u, received, deadline, hwait, hle⟩ := h.waiting_of_blocked hlets hunlock
          obtain ⟨-, ⟨p, hp, hactivity⟩, -⟩ := h.waits u c received deadline hwait
          have hdeadline := hwaiting hwait
          have hpatience := (h.pulses c p hp).1
          rw [World.lapsed_eq, Bool.or_eq_false_iff] at hlive
          refine Or.inr ?_
          show ({ k.world with now := max k.world.now now } : World).lapsed c = false
          rw [World.lapsed_eq, Bool.or_eq_false_iff]
          refine ⟨hlive.1, ?_⟩
          have hp' : ({ k.world with now := max k.world.now now } : World).pulses[c]? = some p := hp
          rw [hp']
          apply Pulse.late_of_le
          rw [hpatience]
          show max k.world.now now - p.lastActivity ≤ session
          omega
      doomed t d hd c hc := (h.doomed t d hd c hc).imp_right (hlapsed c)
      stamps s hs := by
        obtain ⟨htime, hstate⟩ := h.stamps s hs
        refine ⟨htime.trans hlater, hstate.imp_right ?_⟩
        rintro ⟨-, received, hwait | ⟨result, hreply⟩⟩
        · exact ⟨hwaiting hwait, received, Or.inl hwait⟩
        · -- the clock stands still while a drain is to be answered
          obtain ⟨x, hx⟩ := h.sound.agenda_of_reply hreply
          have hdrains := World.drains_of_mem (h.sound.unlock_mem hreply rfl)
          have hready := (World.lets_spec hlets hdrains hx.thread).1
          rw [hx.ready rfl rfl] at hready
          cases hready }

end

/-! ### Steps -/

section Step

variable (h : Timely poll session k) (hx : k.world.Next t x d rest)
include h hx

theorem pulses_step (c : Nat) (p : Pulse) (hp : (k.world.stepThread t).pulses[c]? = some p) :
    p.patience = session ∧ p.lastActivity ≤ (k.world.stepThread t).now := by
  have hbeats := hx.beats
  rw [hbeats.now]
  cases hbeats.feels c with
  | keeps hkeeps =>
    rw [hkeeps] at hp
    exact h.pulses c p hp
  | drained _ hdrained =>
    rw [hdrained, Option.map_eq_some_iff] at hp
    obtain ⟨p', hp', rfl⟩ := hp
    exact ⟨(h.pulses c p' hp').1, le_rfl⟩
  | begins _ hbegins =>
    cases hbegins.symm.trans hp
    exact ⟨h.sessionTimeout, le_rfl⟩

/-- What a take has waited for does not get out of date. -/
theorem waits_step (hwait : .wait c received deadline ∈ k.world.agenda u) :
    (k.world.stepThread t).now ≤ deadline ∧
      ∃ p, (k.world.stepThread t).pulses[c]? = some p ∧ deadline - poll ≤ p.lastActivity := by
  have hbeats := hx.beats
  obtain ⟨hnow, ⟨p, hp, hactivity⟩, -⟩ := h.waits u c received deadline hwait
  rw [hbeats.now]
  refine ⟨hnow, ?_⟩
  cases hbeats.feels c with
  | keeps hkeeps => exact ⟨p, by rw [hkeeps, hp], hactivity⟩
  | drained _ hdrained =>
    refine ⟨p.touch k.world.now, by rw [hdrained, hp, Option.map_some], ?_⟩
    exact hactivity.trans (h.pulses c p hp).2
  | begins hnone =>
    cases hnone.symm.trans hp

/-- What is still to be let go of was so before, or its session was found alive. -/
theorem unlock_before (hunlock : .unlock c ∈ (k.world.stepThread t).agenda u) :
    .unlock c ∈ k.world.agenda u ∨ (∃ r, d = .serve r) ∧ k.world.lapsed c = false := by
  by_cases hut : u = t
  · subst hut
    obtain ⟨z, hz, hgoes⟩ := hx.goes
    rw [World.agenda_of_some hz] at hunlock
    rcases hgoes.agenda with ⟨duties, hlist, hplans⟩ | ⟨-, -, hlist⟩
    · rw [hlist] at hunlock
      rcases List.mem_append.1 hunlock with hnew | hold
      · rcases hplans.session hnew rfl with hsame | ⟨r, id, hserve, hlive⟩
        · exact Or.inl (h.sound.unlock_mem hx.mem hsame)
        · exact Or.inr ⟨⟨r, hserve⟩, World.not_lapsed_of_liveSession? hlive⟩
      · left
        exact hx.mem_rest hold
    · rw [hlist] at hunlock
      cases hunlock
  · left
    rwa [hx.agenda_other hut] at hunlock

theorem live_step (hunlock : .unlock c ∈ (k.world.stepThread t).agenda u) :
    c ∈ k.asked ∨ (k.world.stepThread t).lapsed c = false := by
  have hbeats := hx.beats
  obtain ⟨z, -, -, hdoes⟩ := hx.steps
  rcases h.unlock_before hx hunlock with hbefore | ⟨⟨r, rfl⟩, hlive⟩
  · rcases h.live u c hbefore with hasked | hlive
    · exact Or.inl hasked
    · by_cases hclose : d = .close c
      · -- a session is closed for having lapsed, or because somebody has asked for it
        refine Or.inl ((h.doomed t d hx.mem c ?_).resolve_right ?_)
        · rw [hclose]
          exact List.mem_cons_self
        · rw [hlive]
          rintro ⟨⟩
      · exact Or.inr (World.not_lapsed_after hdoes hbeats hlive hclose)
  · refine Or.inr (World.not_lapsed_after hdoes hbeats hlive ?_)
    rintro ⟨⟩

theorem doomed_step (he : e ∈ (k.world.stepThread t).agenda u) (hc : c ∈ e.dooms) :
    (c ∈ k.asked ∨ d.asks? x = some c) ∨ (k.world.stepThread t).lapsed c = true := by
  have hbeats := hx.beats
  obtain ⟨z, -, -, hdoes⟩ := hx.steps
  rcases World.doomed_before hx he hc with ⟨v, e', he', hc'⟩ | hasks
  · rcases h.doomed v e' he' c hc' with hasked | hlapsed
    · exact Or.inl (Or.inl hasked)
    · by_cases htakes : d.takesFrom? = some c
      · -- whoever takes drains the session, which has not lapsed then
        have hunlock := h.sound.unlock_mem hx.mem (Duty.session?_of_takesFrom? htakes)
        refine Or.inl (Or.inl ((h.live t c hunlock).resolve_right ?_))
        rw [hlapsed]
        rintro ⟨⟩
      · exact Or.inr (World.lapsed_after hdoes hbeats hlapsed htakes)
  · exact Or.inl (Or.inr hasks)

/-- A take that is under way goes on, or ends now. -/
theorem underway_step {s : Stamp} (hs : Underway poll k s) :
    (k.world.stepThread t).now ≤ s.time + poll ∧
      ((∃ received, .wait s.conn received (s.time + poll) ∈ (k.world.stepThread t).agenda s.thread ∨
          ∃ result, .reply s.conn received result ∈ (k.world.stepThread t).agenda s.thread) ∨
        s.thread = t ∧ d.ends? = some s.conn) := by
  obtain ⟨hlimit, received, hstate⟩ := hs
  rw [hx.beats.now]
  refine ⟨hlimit, ?_⟩
  by_cases hut : s.thread = t
  · rw [hut] at hstate ⊢
    rcases hstate with hwait | ⟨result, hreply⟩
    · obtain ⟨x', y, hx', hy⟩ := h.sound.agenda_of_wait hwait
      cases hx'.thread.symm.trans hx.thread
      rw [(hx'.taken hy (.resumes _)).1]
      exact Or.inl ⟨received, World.mem_ofTake (y.queue.resumeTake_brings _ _ _ _) _⟩
    · obtain ⟨x', hx'⟩ := h.sound.agenda_of_reply hreply
      cases hx.agenda_eq.symm.trans hx'.agenda_eq
      exact Or.inr ⟨rfl, rfl⟩
  · rw [hx.agenda_other hut]
    exact Or.inl ⟨received, hstate⟩

/-- A take that starts is under way. -/
theorem starts_step (hd : d.starts? = some c) :
    ∃ received, .wait c received (k.world.now + poll) ∈ (k.world.stepThread t).agenda t ∨
      ∃ result, .reply c received result ∈ (k.world.stepThread t).agenda t := by
  cases d with
  | take c' received =>
    cases hd
    obtain ⟨x', n, back, taken, y, -, -, -, hy⟩ := h.sound.drain hx.mem rfl
    rw [(hx.taken hy .starts).1, ← h.pollTimeout]
    exact ⟨received, World.mem_ofTake (y.queue.startTake_brings _ _ _) _⟩
  | _ => cases hd

end Step

end Timely

theorem after_step (hready : k.world.ready t = true) (hx : k.world.Next t x d rest) :
    (k.after (.step t)).world = k.world.stepThread t ∧
      (k.after (.step t)).asked = k.asked ++ (d.asks? x).toList ∧
      (k.after (.step t)).starts = k.starts ++ (d.starts?.map fun c => ⟨t, c, k.world.now⟩).toList ∧
      (k.after (.step t)).ends = k.ends ++ (d.ends?.map fun c => ⟨t, c, k.world.now⟩).toList := by
  have hafter : k.after (.step t) = k.enter (.step t) := if_pos rfl
  rw [hafter]
  refine ⟨History.world_after_step hready, ?_, ?_, ?_⟩
  · simp only [enter, World.asks?, hready, if_true, hx.thread, Option.bind_some, hx.agenda, List.head?_cons]
  · simp only [enter, World.stamp?, hready, if_true, hx.first, Option.bind_some]
  · simp only [enter, World.stamp?, hready, if_true, hx.first, Option.bind_some]

/-- A step of a thread. -/
theorem Timely.step (h : Timely poll session k) (hpoll : 0 < poll) (hready : k.world.ready t = true) :
    Timely poll session (k.after (.step t)) := by
  obtain ⟨x, d, rest, hx⟩ := World.agenda_of_ready hready
  obtain ⟨hworld, hasked, hstarts, hends⟩ := after_step hready hx
  have hbeats := hx.beats
  obtain ⟨z, -, -, hdoes⟩ := hx.steps
  constructor
  case sound => exact h.sound.after (.step t)
  case gripped => exact gripped_after h.sound h.gripped (.step t)
  case paired => exact hworld ▸ h.paired.step hdoes
  case pollTimeout => rw [hworld, hbeats.settings, h.pollTimeout]
  case sessionTimeout => rw [hworld, hbeats.settings, h.sessionTimeout]
  case pulses =>
    rw [hworld]
    exact h.pulses_step hx
  case waits =>
    intro u c received deadline hwait
    rw [hworld] at hwait ⊢
    rw [hstarts]
    have hold : .wait c received deadline ∈ k.world.agenda u → (k.world.stepThread t).now ≤ deadline ∧
        (∃ p, (k.world.stepThread t).pulses[c]? = some p ∧ deadline - poll ≤ p.lastActivity) ∧
        ⟨u, c, deadline - poll⟩ ∈ k.starts ++ (d.starts?.map fun c => ⟨t, c, k.world.now⟩).toList := by
      intro hbefore
      obtain ⟨hnow, hpulse⟩ := h.waits_step hx hbefore
      exact ⟨hnow, hpulse, List.mem_append_left _ (h.waits u c received deadline hbefore).2.2⟩
    by_cases hut : u = t
    · subst hut
      rcases hbeats.agenda _ hwait with hrest | hplanned
      · apply hold
        exact hx.mem_rest hrest
      · rcases hplanned.waits c received deadline rfl with rfl | ⟨rfl, hdeadline, p, hp, hactivity⟩
        · exact hold hx.mem
        · -- the take starts now
          rw [h.pollTimeout] at hdeadline
          rw [hbeats.now]
          refine ⟨by omega, ⟨p, hp, by omega⟩, List.mem_append_right _ ?_⟩
          rw [hdeadline, Int.add_sub_cancel]
          exact List.mem_singleton_self _
    · apply hold
      rwa [hx.agenda_other hut] at hwait
  case live =>
    intro u c hunlock
    rw [hworld] at hunlock ⊢
    exact (h.live_step hx hunlock).imp_left fun hc => List.mem_append_left _ hc
  case doomed =>
    intro u e he c hc
    rw [hworld] at he ⊢
    rw [hasked, List.mem_append, Option.mem_toList]
    exact h.doomed_step hx he hc
  case stamps =>
    intro s hs
    rw [hstarts] at hs
    rw [hworld, hbeats.now]
    have hended : Ended poll k s → Ended poll (k.after (.step t)) s := by
      rintro ⟨e, he, hfacts⟩
      exact ⟨e, by rw [hends]; exact List.mem_append_left _ he, hfacts⟩
    rcases List.mem_append.1 hs with hold | hnew
    · obtain ⟨htime, hstate⟩ := h.stamps s hold
      refine ⟨htime, ?_⟩
      rcases hstate with hdone | hunderway
      · exact Or.inl (hended hdone)
      · obtain ⟨hlimit, hgoes | ⟨rfl, hreply⟩⟩ := h.underway_step hx hunderway
        · exact Or.inr ⟨hworld ▸ hlimit, hworld ▸ hgoes⟩
        · -- the drain is answered now
          rw [hbeats.now] at hlimit
          refine Or.inl ⟨⟨s.thread, s.conn, k.world.now⟩, ?_, rfl, rfl, htime, hlimit⟩
          rw [hends, hreply]
          exact List.mem_append_right _ List.mem_cons_self
    · rw [Option.mem_toList, Option.map_eq_some_iff] at hnew
      obtain ⟨c, hc, rfl⟩ := hnew
      refine ⟨le_rfl, Or.inr ⟨?_, hworld ▸ h.starts_step hx hc⟩⟩
      rw [hworld, hbeats.now]
      show k.world.now ≤ k.world.now + poll
      omega

/-- Moves that are neither steps nor of the clock leave connections, tables, settings, clock and stamps as they are. -/
theorem still_enter (k : Watch) (hstep : ∀ t, m ≠ .step t) (hclock : ∀ now, m ≠ .clock now) :
    (k.enter m).world.conns = k.world.conns ∧ (k.enter m).world.now = k.world.now ∧
      (k.enter m).world.settings = k.world.settings ∧ (k.enter m).world.sessions = k.world.sessions ∧
      (k.enter m).world.online = k.world.online ∧ (k.enter m).starts = k.starts ∧ (k.enter m).ends = k.ends := by
  cases m with
  | step t => exact absurd rfl (hstep t)
  | clock now => exact absurd rfl (hclock now)
  | act t a =>
    unfold enter History.after
    dsimp only
    split <;> exact ⟨rfl, rfl, rfl, rfl, rfl, List.append_nil _, List.append_nil _⟩
  | _ =>
    exact ⟨rfl, rfl, rfl, rfl, rfl, List.append_nil _, List.append_nil _⟩

/-- What a move starts closes nothing, but for what somebody asks for and what a sweep has found. -/
theorem Timely.dooms_of_duty? (h : Timely poll session k) (hd : m.duty? k.world = some d) (hc : c ∈ d.dooms) :
    c ∈ (k.enter m).asked ∨ k.world.lapsed c = true := by
  cases m with
  | close c' =>
    cases hd
    rw [Duty.dooms, List.mem_singleton] at hc
    exact Or.inl (List.mem_append_right _ (hc ▸ List.mem_cons_self))
  | sweep =>
    cases hd
    exact Or.inr (h.paired.lapsed hc)
  | request | send | broadcast | shutdown =>
    cases hd
    cases hc
  | _ => cases hd

/-- Other moves than steps and those of the clock give threads further duties at most. -/
theorem Timely.adds (h : Timely poll session k) (hstep : ∀ t, m ≠ .step t) (hclock : ∀ now, m ≠ .clock now) :
    Timely poll session (k.enter m) := by
  obtain ⟨hconns, hnow, hsettings, hsessions, honline, hstarts, hends⟩ := still_enter k hstep hclock
  have hsound : Sound (k.enter m).toBooks (k.enter m).world := h.sound.after m
  have hgripped : (k.enter m).world.Gripped := gripped_after h.sound h.gripped m
  have hasked : ∀ c ∈ k.asked, c ∈ (k.enter m).asked := fun c hc => List.mem_append_left _ hc
  have hagenda : ∀ t, (k.enter m).world.agenda t = k.world.agenda t ∨
      ∃ d, (k.enter m).world.agenda t = d :: k.world.agenda t ∧ d.session? = none ∧
        ∀ c ∈ d.dooms, c ∈ (k.enter m).asked ∨ k.world.lapsed c = true := by
    intro t
    refine ((k.toHistory.turns_after m).grows hstep t).imp_right ?_
    rintro ⟨d, hmore, -, ⟨_, _, _, _, rfl⟩ | hduty⟩
    · exact ⟨_, hmore, rfl, by simp [Duty.dooms]⟩
    · exact ⟨d, hmore, (Move.quiet_of_duty? hduty).2.1, fun c hc => h.dooms_of_duty? hduty hc⟩
  generalize k.enter m = l at *
  have hpulses : l.world.pulses = k.world.pulses := by rw [World.pulses, hconns, World.pulses]
  have hlapsed : ∀ c, l.world.lapsed c = k.world.lapsed c := by
    intro c
    rw [World.lapsed, World.conn?, hconns, hnow]
    rfl
  -- what drains a session was there before
  have hold : ∀ {t c : Nat} {e : Duty}, e.session? = some c → e ∈ l.world.agenda t → e ∈ k.world.agenda t := by
    intro t c e hc he
    rcases hagenda t with hsame | ⟨d, hmore, hd, -⟩
    · rwa [hsame] at he
    · rw [hmore] at he
      rcases List.mem_cons.1 he with rfl | he
      · cases hd.symm.trans hc
      · exact he
  have hnew : ∀ {t : Nat} {e : Duty}, e ∈ k.world.agenda t → e ∈ l.world.agenda t := by
    intro t e he
    rcases hagenda t with hsame | ⟨d, hmore, -⟩
    · rwa [hsame]
    · rw [hmore]
      exact List.mem_cons_of_mem d he
  exact
    { sound := hsound
      gripped := hgripped
      paired := ⟨by rw [hsessions, honline, h.paired.tables], by rw [hsessions]; exact h.paired.keys⟩
      pollTimeout := by rw [hsettings, h.pollTimeout]
      sessionTimeout := by rw [hsettings, h.sessionTimeout]
      pulses := by
        rw [hpulses, hnow]
        exact h.pulses
      waits t c received deadline hwait := by
        rw [hpulses, hnow, hstarts]
        exact h.waits t c received deadline (hold rfl hwait)
      live t c hunlock := by
        rw [hlapsed]
        exact (h.live t c (hold rfl hunlock)).imp_left (hasked c)
      doomed t d hd c hc := by
        rw [hlapsed]
        rcases hagenda t with hsame | ⟨e, hmore, -, he⟩
        · rw [hsame] at hd
          exact (h.doomed t d hd c hc).imp_left (hasked c)
        · rw [hmore] at hd
          rcases List.mem_cons.1 hd with rfl | hd
          · exact he c hc
          · exact (h.doomed t d hd c hc).imp_left (hasked c)
      stamps s hs := by
        rw [hstarts] at hs
        obtain ⟨htime, hstate⟩ := h.stamps s hs
        refine ⟨hnow ▸ htime, ?_⟩
        rcases hstate with hended | ⟨hlimit, received, hunderway⟩
        · exact Or.inl (by rwa [Ended, hends])
        · refine Or.inr ⟨hnow ▸ hlimit, received, ?_⟩
          rcases hunderway with hwait | ⟨result, hreply⟩
          · exact Or.inl (hnew hwait)
          · exact Or.inr ⟨result, hnew hreply⟩ }

/-- Every move keeps the invariant. -/
theorem Timely.after (h : Timely poll session k) (hpoll : 0 < poll) (hsession : poll < session) (m : Move) :
    Timely poll session (k.after m) := by
  by_cases hclock : ∃ now, m = .clock now
  · obtain ⟨now, rfl⟩ := hclock
    rw [Watch.after]
    split
    next hadmits =>
      have henter : k.enter (.clock now) = { k with toHistory := k.toHistory.after (.clock now) } := by
        simp only [enter, World.asks?, World.stamp?, Option.toList_none, List.append_nil]
      rw [henter]
      exact h.clock hsession hadmits
    next => exact h
  · by_cases hstep : ∃ t, m = .step t
    · obtain ⟨t, rfl⟩ := hstep
      cases hready : k.world.ready t with
      | true => exact h.step hpoll hready
      | false =>
        have hafter : k.after (.step t) = k := by
          have henter : k.after (.step t) = k.enter (.step t) := if_pos rfl
          rw [henter]
          simp only [enter, World.asks?, World.stamp?, History.after, hready, Bool.false_eq_true, if_false,
            Option.toList_none, List.append_nil]
        rw [hafter]
        exact h
    · have hafter : k.after m = k.enter m := by
        apply if_pos
        cases m with
        | clock now => exact absurd ⟨now, rfl⟩ hclock
        | _ => rfl
      rw [hafter]
      exact h.adds (fun t heq => hstep ⟨t, heq⟩) fun now heq => hclock ⟨now, heq⟩

theorem timely_new (c : ServerConfig) (ids : Ids) : Timely c.pollTimeout c.sessionTimeout (new c ids) := by
  -- the server is set up, and handlers are registered one after another
  set settings : Settings :=
    { pollTimeout := c.pollTimeout, sessionTimeout := c.sessionTimeout, bufferSize := c.bufferSize,
      ownLog := false }
  set limiter := Limiter.ofConfig? c.handshakeRate c.handshakeBurst
  have hsound : Sound (new c ids).toBooks (new c ids).world :=
    (((Sound.new settings limiter ids).after (.register "connect" .welcome)).after
      (.register "disconnect" .farewell)).after (.register "message" (if c.broadcast then .relay else .echo))
  constructor
  case sound => exact hsound
  case gripped =>
    rintro d t ⟨f, hf, -⟩
    cases hf
  case paired => exact ⟨rfl, List.nodup_nil⟩
  case pollTimeout => rfl
  case sessionTimeout => rfl
  case pulses => nofun
  case waits => nofun
  case live => nofun
  case doomed => nofun
  case stamps => nofun

/-- Every run keeps the invariant, if the timeouts are in order. -/
theorem timely_run {c : ServerConfig} (hpoll : 0 < c.pollTimeout) (hsession : c.pollTimeout < c.sessionTimeout)
    (ids : Ids) (moves : List Move) : Timely c.pollTimeout c.sessionTimeout (run c ids moves) := by
  induction moves using List.reverseRecOn with
  | nil => exact timely_new c ids
  | append_singleton more m ih =>
    rw [run_concat]
    exact ih.after hpoll hsession m

/-! ## When time is up -/

theorem mem_ends_after (m : Move) {e : Stamp} (h : e ∈ k.ends) : e ∈ (k.after m).ends := by
  rw [Watch.after]
  split
  · exact List.mem_append_left _ h
  · exact h

variable (h : Timely poll session k)
include h

/-- A drain that is to be answered is answered by the next step of its thread. -/
theorem Timely.ends_of_reply (hreply : .reply c received result ∈ k.world.agenda t) :
    ⟨t, c, k.world.now⟩ ∈ (k.after (.step t)).ends := by
  obtain ⟨x, hx⟩ := h.sound.agenda_of_reply hreply
  obtain ⟨-, -, -, hends⟩ := after_step (hx.ready rfl rfl) hx
  rw [hends]
  exact List.mem_append_right _ List.mem_cons_self

/-- A take whose time is up has its result after a step, or waits on with no token left. With no token left
it has its result. -/
theorem Timely.due_step (hpoll : 0 < poll)
    (hwait : .wait c received deadline ∈ k.world.agenda t) (hdue : deadline ≤ k.world.now) {y : Conn}
    (hy : k.world.conn? c = some y) :
    Timely poll session (k.after (.step t)) ∧ (k.after (.step t)).world.now = k.world.now ∧
      ((∃ result, .reply c received result ∈ (k.after (.step t)).world.agenda t) ∨
        y.queue.token = true ∧ .wait c received deadline ∈ (k.after (.step t)).world.agenda t ∧
          ∃ z, (k.after (.step t)).world.conn? c = some z ∧ z.queue.token = false) := by
  obtain ⟨x, y', hx, -⟩ := h.sound.agenda_of_wait hwait
  have hready : k.world.ready t = true := by
    simp [World.ready, hx.thread, hx.agenda, hy, Poll.Queue.reason?, Poll.Queue.wakesFor, hdue]
  obtain ⟨hworld, -⟩ := after_step hready hx
  obtain ⟨hnext, hconn⟩ := hx.taken hy (.resumes deadline)
  refine ⟨h.step hpoll hready, by rw [hworld, hx.beats.now], ?_⟩
  rw [hworld, hnext, hconn]
  cases hresult : (y.queue.resumeTake k.world.now x.cancelled deadline x.preferred).2 with
  | done result => exact Or.inl ⟨result, List.mem_cons_self⟩
  | waiting deadline' =>
    obtain rfl := (y.queue.resumeTake_brings _ _ _ _).deadline _ hresult
    rcases y.queue.resumeTake_of_deadline x.cancelled x.preferred hdue with ⟨result, hdone⟩ | ⟨htoken, hused⟩
    · cases hdone.symm.trans hresult
    · exact Or.inr ⟨htoken, List.mem_cons_self, _, rfl, hused⟩

/-- A take whose time is up is answered or abandoned now: its thread needs three steps for that at most, one
for a token that is left from before, one to find that time is up, and one to answer. -/
theorem Timely.ends_of_due (hpoll : 0 < poll) {s : Stamp} (hs : Underway poll k s)
    (hdue : k.world.now = s.time + poll) :
    ⟨s.thread, s.conn, k.world.now⟩ ∈ ((steps s.thread 3).foldl Watch.after k).ends := by
  have hsteps : (steps s.thread 3).foldl Watch.after k =
      ((k.after (.step s.thread)).after (.step s.thread)).after (.step s.thread) := rfl
  rw [hsteps]
  obtain ⟨-, received, hwait | ⟨result, hreply⟩⟩ := hs
  · obtain ⟨-, y, -, hy⟩ := h.sound.agenda_of_wait hwait
    obtain ⟨h', hnow, ⟨result, hreply⟩ | ⟨-, hwait', z, hz, htoken⟩⟩ := h.due_step hpoll hwait hdue.ge hy
    · rw [← hnow]
      exact mem_ends_after _ (h'.ends_of_reply hreply)
    · obtain ⟨h'', hnow', ⟨result, hreply⟩ | ⟨htoken', -⟩⟩ := h'.due_step hpoll hwait' (hnow ▸ hdue.ge) hz
      · rw [← hnow, ← hnow']
        exact h''.ends_of_reply hreply
      · rw [htoken] at htoken'
        cases htoken'
  · exact mem_ends_after _ (mem_ends_after _ (h.ends_of_reply hreply))

/-- The session of a take that waits has not been without a drain for too long. -/
theorem Timely.expired_of_wait (hsession : poll < session)
    (hwait : .wait c received deadline ∈ k.world.agenda t) {y : Conn} (hy : k.world.conn? c = some y) :
    y.queue.expired k.world.now = y.queue.closed := by
  obtain ⟨hnow, ⟨p, hp, hactivity⟩, -⟩ := h.waits t c received deadline hwait
  have hpatience := (h.pulses c p hp).1
  rw [World.getElem?_pulses, hy] at hp
  cases hp
  have hlate : y.pulse.late k.world.now = false := by
    apply Pulse.late_of_le
    omega
  show (y.queue.closed || y.pulse.late k.world.now) = y.queue.closed
  rw [hlate, Bool.or_false]

end Watch

/-- The timeouts of a configuration that keeps all rules are in order. -/
theorem timeouts_of_validate {config : Config} (h : config.validate = .ok config) :
    0 < config.server.pollTimeout ∧ config.server.pollTimeout < config.server.sessionTimeout ∧
      config.server.pollTimeout < config.client.timeout := by
  have hnone : config.fault? = none := by
    unfold Config.validate at h
    split at h
    · cases h
    · assumption
  simp only [Config.fault?, ite_eq_iff, reduceCtorEq, and_false, false_or, not_le] at hnone
  obtain ⟨-, hpoll, hsession, -, -, -, hclient, -⟩ := hnone
  exact ⟨hpoll, hsession, hclient⟩

theorem World.wait_mem_agenda (h : w.waits? t = some c) :
    ∃ received deadline, .wait c received deadline ∈ w.agenda t := by
  rw [waits?, Option.bind_eq_some_iff] at h
  obtain ⟨d, hfirst, hd⟩ := h
  rw [first?, Option.bind_eq_some_iff] at hfirst
  obtain ⟨x, hx, hhead⟩ := hfirst
  rw [agenda_of_some hx]
  cases d with
  | wait c' received deadline =>
    cases hd
    exact ⟨received, deadline, List.mem_of_head? hhead⟩
  | _ => cases hd

/-- A server with a configuration that keeps all rules does not give up a session while a drain of it waits.
The session has expired only if it is closed, no sweep that comes now finds it, and if nobody has asked to
close it then it is open and nobody is to close it. Every take that has started is answered or abandoned
within the poll timeout, before the client gives up: it has been already, or its time is not up, or its
thread does so at once. -/
theorem waiting_drains_live (config : Config) (ids : Ids) (moves : List Move)
    (hvalid : config.validate = .ok config) :
    let k := Watch.run config.server ids moves
    let poll := config.server.pollTimeout
    (∀ t c, k.world.waits? t = some c →
      (∃ s ∈ k.starts, s.thread = t ∧ s.conn = c ∧ k.world.now ≤ s.time + poll) ∧
      ∃ y, k.world.conn? c = some y ∧
        (y.queue.closed = false → y.queue.expired k.world.now = false ∧ c ∉ k.world.expiredConns) ∧
        (c ∉ k.asked → y.queue.closed = false ∧ ∀ u, ∀ d ∈ k.world.agenda u, c ∉ d.dooms)) ∧
    ∀ s ∈ k.starts,
      (∃ e ∈ k.ends, e.thread = s.thread ∧ e.conn = s.conn ∧ s.time ≤ e.time ∧ e.time ≤ s.time + poll ∧
        e.time < s.time + config.client.timeout) ∨
      k.world.now ≤ s.time + poll ∧ k.world.now < s.time + config.client.timeout ∧
        (k.world.now = s.time + poll → ⟨s.thread, s.conn, k.world.now⟩ ∈
          ((Watch.steps s.thread 3).foldl Watch.after k).ends) := by
  intro k poll
  obtain ⟨hpoll, hsession, hclient⟩ := timeouts_of_validate hvalid
  have h : k.Timely poll config.server.sessionTimeout := Watch.timely_run hpoll hsession ids moves
  constructor
  · intro t c hheld
    obtain ⟨received, deadline, hwait⟩ := World.wait_mem_agenda hheld
    obtain ⟨hnow, -, hstart⟩ := h.waits t c received deadline hwait
    obtain ⟨-, y, -, hy⟩ := h.sound.agenda_of_wait hwait
    have hunlock := h.sound.unlock_mem hwait rfl
    have hexpired := h.expired_of_wait hsession hwait hy
    have hlapsed : k.world.lapsed c = y.queue.closed := by
      rw [World.lapsed, hy, Option.any_some, hexpired]
    refine ⟨⟨_, hstart, rfl, rfl, by dsimp only; omega⟩, y, hy, ?_, ?_⟩
    · intro hopen
      refine ⟨hexpired.trans hopen, ?_⟩
      intro hfound
      rw [h.paired.lapsed hfound, hopen] at hlapsed
      cases hlapsed
    · intro hasked
      refine ⟨hlapsed ▸ (h.live t c hunlock).resolve_left hasked, ?_⟩
      exact fun u d hd => h.not_doomed hasked hunlock hd
  · intro s hs
    obtain ⟨-, ⟨e, he, hthread, hconn, hlower, hupper⟩ | hunderway⟩ := h.stamps s hs
    · exact Or.inl ⟨e, he, hthread, hconn, hlower, hupper, by omega⟩
    · have hlimit := hunderway.1
      exact Or.inr ⟨hlimit, by omega, h.ends_of_due hpoll hunderway⟩

/-- A configuration with the shortest timeouts for drains of five nanoseconds. -/
def hasty : Config := { server := { pollTimeout := 5, sessionTimeout := 6 }, client := { timeout := 6 } }

/-- A drain of the first session that says nothing. -/
def polling : Request :=
  { method := "POST"
    header := ({} : Header).set sessionField (Ids.draw {}).1
    body := DrainRequest.body ⟨(Ids.draw {}).1, defaultProtocol, []⟩ }

/-- Two drains of one session, the second of which has to wait for the first. Sweeps come when the time of
the first is up, and when that of the second is. -/
def twoPolls : List Move :=
  .request { method := "POST", header := {}, body := [] } :: Watch.steps 0 4 ++
    .clock 3 :: .request polling :: Watch.steps 1 4 ++ .request polling :: .step 2 :: .clock 8 :: .sweep :: .step 3 ::
    Watch.steps 1 3 ++ Watch.steps 2 3 ++ [.clock 13, .sweep]

theorem waiting_drains_live_twoPolls :
    hasty.validate = .ok hasty ∧
      let k := Watch.run hasty.server {} twoPolls
      k.world.now = 13 ∧ k.world.waits? 2 = some 0 ∧ k.asked = [] ∧ k.starts = [⟨1, 0, 3⟩, ⟨2, 0, 8⟩] ∧
        k.ends = [⟨1, 0, 8⟩] ∧
        (∃ y, k.world.conn? 0 = some y ∧ y.queue.closed = false ∧ y.queue.expired 13 = false) ∧
        0 ∉ k.world.expiredConns ∧
        ⟨2, 0, 13⟩ ∈ ((Watch.steps 2 3).foldl Watch.after k).ends := by
  have hvalid : hasty.validate = .ok hasty := by
    have hnone : hasty.fault? = none := by decide +kernel
    rw [Config.validate, hnone]
  have hrun :
      let k := Watch.run hasty.server {} twoPolls
      k.world.now = 13 ∧ k.world.waits? 2 = some 0 ∧ k.asked = [] ∧ k.starts = [⟨1, 0, 3⟩, ⟨2, 0, 8⟩] ∧
        k.ends = [⟨1, 0, 8⟩] := by
    decide +kernel
  have hlive := waiting_drains_live hasty {} twoPolls hvalid
  refine ⟨hvalid, ?_⟩
  -- from here on only these facts about the run matter
  generalize Watch.run hasty.server {} twoPolls = k at hrun hlive ⊢
  obtain ⟨hnow, hheld, hasked, hstarts, hends⟩ := hrun
  obtain ⟨hwaits, hstamps⟩ := hlive
  obtain ⟨-, y, hy, hopen, hfree⟩ := hwaits 2 0 hheld
  have hclosed := (hfree (by rw [hasked]; decide)).1
  obtain ⟨hexpired, hfound⟩ := hopen hclosed
  refine ⟨hnow, hheld, hasked, hstarts, hends, ⟨y, hy, hclosed, hnow ▸ hexpired⟩, hfound, ?_⟩
  rcases hstamps ⟨2, 0, 8⟩ (by rw [hstarts]; decide) with ⟨e, he, hthread, -⟩ | ⟨-, -, hdue⟩
  · rw [hends, List.mem_singleton] at he
    subst he
    cases hthread
  · rw [hnow] at hdue
    exact hdue rfl

end PollSocket.Server
