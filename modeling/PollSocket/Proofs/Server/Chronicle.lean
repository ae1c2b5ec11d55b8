import PollSocket.Proofs.Server.Holding

set_option autoImplicit false

/-!
# Events of sessions

A session enters the tables before the handlers are told that it begins, and it leaves them before they
are told that it ends. In between the event is due: it is what the thread does next. A chronicle is a
history in which nobody looks in between. Threads run in any order, but while another thread has an event
due no thread opens a session, closes one or enters a handler. Operations that come one after another are
run like that, and so are handlers that call the server again. A handler may also close connections that
are not its own.

The events that have begun, with the one that is due, are what the tables have gone through
(`Chronicle.records_after`): each session has begun once, and has ended once if it is not online any more
(`World.Registered`).
-/

namespace PollSocket.Server

variable {d : Duty} {record : List (Nat × String)} {table : List (String × Nat)} {rest : List Duty}
  {c t : Nat} {due news : Option (Nat × String)} {data id : String}

/-! ## Chronicles -/

/-- What can happen next. -/
inductive Turn where
  | move (m : Move)
  /-- The handler that thread `t` is executing closes a connection. -/
  | closes (t c : Nat)

/-- The duty opens a session, closes one or enters a handler. -/
def Duty.exposed : Duty → Bool
  | .serve _ => true
  | .close _ => true
  | .react _ _ _ _ => true
  | _ => false

namespace World

/-- What a thread has left to do. -/
def agenda (w : World) (t : Nat) : List Duty := (w.threads[t]?.map Thread.agenda).getD []

/-- The event that a thread begins next. -/
def due? (w : World) (t : Nat) : Option (Nat × String) := (w.agenda t).head?.bind Duty.event?

/-- No thread but `t` has an event due. -/
def clear (w : World) (t : Nat) : Bool :=
  (List.range w.threads.length).all fun u => u == t || (w.due? u).isNone

/-- No thread has an event due. -/
def settled (w : World) : Bool := (List.range w.threads.length).all fun u => (w.due? u).isNone

/-- Thread `t` may go on. -/
def permits (w : World) (t : Nat) : Bool := !(w.agenda t).head?.any Duty.exposed || w.clear t

end World

/-- A history with the events that have begun, by connection, oldest first. -/
structure Chronicle extends History where
  events : List (Nat × String) := []

namespace Chronicle

/-- The chronicle after a turn. -/
def after (s : Chronicle) : Turn → Chronicle
  | .move (.step t) =>
    if s.world.permits t then
      { toHistory := s.toHistory.after (.step t)
        events := s.events ++ (s.world.due? t).toList }
    else s
  | .move m => { s with toHistory := s.toHistory.after m }
  | .closes t c =>
    if (s.world.acting? t).isSome then { s with world := s.world.push t [.close c] } else s

/-- The chronicle of a run of a new server. -/
def run (settings : Settings) (limiter : Option Limiter) (ids : Ids) (turns : List Turn) : Chronicle :=
  turns.foldl after { toHistory := .new settings limiter ids }

variable (settings : Settings) (limiter : Option Limiter) (ids : Ids)

theorem run_append (front back : List Turn) :
    run settings limiter ids (front ++ back) = back.foldl after (run settings limiter ids front) :=
  List.foldl_append

theorem run_concat (turns : List Turn) (turn : Turn) :
    run settings limiter ids (turns ++ [turn]) = (run settings limiter ids turns).after turn :=
  List.foldl_append

end Chronicle

namespace Chronicle

variable {s : Chronicle}

/-- A move happens, or it has to wait. -/
theorem world_after_move (s : Chronicle) (m : Move) :
    (s.after (.move m)).world = s.world ∨ (s.after (.move m)).world = (s.toHistory.after m).world := by
  cases m with
  | step t =>
    rw [after]
    split
    · exact Or.inr rfl
    · exact Or.inl rfl
  | _ =>
    exact Or.inr rfl

theorem world_after_step (hpermits : s.world.permits t = true) (hready : s.world.ready t = true) :
    (s.after (.move (.step t))).world = s.world.stepThread t := by
  rw [after, if_pos hpermits]
  exact History.world_after_step hready

/-- A thread that has to wait does nothing. -/
theorem world_of_waiting (h : ¬ (s.world.permits t = true ∧ s.world.ready t = true)) :
    (s.after (.move (.step t))).world = s.world := by
  rw [after]
  split
  next hpermits =>
    have hready : ¬ s.world.ready t = true := fun hready => h ⟨hpermits, hready⟩
    show (s.toHistory.after (.step t)).world = s.world
    rw [History.after, if_neg hready]
  next => rfl

end Chronicle

/-! ## Agendas -/

namespace World

variable {w v : World} {x : Thread}

theorem agenda_of_some (hx : w.threads[t]? = some x) : w.agenda t = x.agenda := by
  rw [agenda, hx]
  rfl

theorem agenda_of_none (h : w.threads[t]? = none) : w.agenda t = [] := by
  rw [agenda, h]
  rfl

theorem agenda_congr (h : v.threads[t]? = w.threads[t]?) : v.agenda t = w.agenda t := by
  rw [agenda, h, agenda]

theorem thread_of_mem {e : Duty} (he : e ∈ w.agenda t) : ∃ x, w.threads[t]? = some x := by
  cases hx : w.threads[t]? with
  | none =>
    rw [agenda_of_none hx] at he
    cases he
  | some x => exact ⟨x, rfl⟩

theorem next_of_agenda (h : w.agenda t = d :: rest) : ∃ x, w.Next t x d rest := by
  obtain ⟨x, hx⟩ := thread_of_mem (h ▸ List.mem_cons_self : d ∈ w.agenda t)
  exact ⟨x, hx, (agenda_of_some hx).symm.trans h⟩

/-- Agendas stay as they are when something else of a thread is changed. -/
theorem agenda_flag (u t : Nat) {f : Thread → Thread} (hf : ∀ x, (f x).agenda = x.agenda) :
    (w.updateThread u f).agenda t = w.agenda t := by
  rw [agenda, threads_updateThread, agenda]
  split
  · cases w.threads[t]? with
    | none => rfl
    | some x => exact hf x
  · rfl

/-- Agendas when a thread is started. -/
theorem agenda_spawn (h : v.threads = w.threads ++ [{ agenda := [d] }]) (t : Nat) :
    t ≠ w.threads.length ∧ v.agenda t = w.agenda t ∨ t = w.threads.length ∧ w.agenda t = [] ∧ v.agenda t = [d] := by
  rw [agenda, agenda, h]
  by_cases ht : t = w.threads.length
  · rw [ht, List.getElem?_concat_length, List.getElem?_eq_none le_rfl]
    exact Or.inr ⟨rfl, rfl, rfl⟩
  · rw [getElem?_concat_of_ne ht]
    exact Or.inl ⟨ht, rfl⟩

section Next

variable (hx : w.Next t x d rest)
include hx

theorem Next.agenda_eq : w.agenda t = d :: rest := (agenda_of_some hx.thread).trans hx.agenda

theorem Next.mem : d ∈ w.agenda t := hx.agenda_eq ▸ List.mem_cons_self

theorem Next.mem_rest {e : Duty} (he : e ∈ rest) : e ∈ w.agenda t := hx.agenda_eq ▸ List.mem_cons_of_mem d he

theorem Next.agenda_other {u : Nat} (hu : u ≠ t) : (w.stepThread t).agenda u = w.agenda u :=
  agenda_congr (hx.effect.others u hu)

end Next

theorem due?_congr (h : v.agenda t = w.agenda t) : v.due? t = w.due? t := by rw [due?, h, due?]

theorem due?_of_agenda (h : w.agenda t = d :: rest) : w.due? t = d.event? := by
  rw [due?, h]
  rfl

/-- A thread that does not exist has nothing due. -/
theorem due?_of_le (h : w.threads.length ≤ t) : w.due? t = none := by
  rw [due?, agenda_of_none (List.getElem?_eq_none h)]
  rfl

theorem clear_iff : w.clear t = true ↔ ∀ u, u ≠ t → w.due? u = none := by
  rw [clear, List.all_eq_true]
  constructor
  · intro h u hne
    by_cases hu : u < w.threads.length
    · simpa [hne] using h u (List.mem_range.2 hu)
    · exact due?_of_le (Nat.le_of_not_lt hu)
  · intro h u _
    by_cases hu : u = t
    · simp [hu]
    · simp [h u hu]

theorem settled_iff : w.settled = true ↔ ∀ u, w.due? u = none := by
  rw [settled, List.all_eq_true]
  constructor
  · intro h u
    by_cases hu : u < w.threads.length
    · simpa using h u (List.mem_range.2 hu)
    · exact due?_of_le (Nat.le_of_not_lt hu)
  · intro h u _
    simp [h u]

/-- A duty that is exposed is done only if no event is due. -/
theorem settled_of_exposed (hagenda : w.agenda t = d :: rest) (hd : d.exposed = true)
    (hpermits : w.permits t = true) : w.settled = true := by
  have hclear : w.clear t = true := by simpa [permits, hagenda, hd] using hpermits
  rw [settled_iff]
  intro u
  by_cases hu : u = t
  · subst hu
    rw [due?_of_agenda hagenda]
    cases d with
    | serve | close | react => rfl
    | _ => cases hd
  · exact clear_iff.1 hclear u hu

/-- An event begins without waiting. -/
theorem goes_of_trigger {name : String} (h : w.agenda t = .trigger name c data :: rest) :
    w.permits t = true ∧ w.ready t = true := by
  constructor
  · rw [permits, h]
    rfl
  · obtain ⟨x, hx⟩ := next_of_agenda h
    simp [ready, hx.thread, hx.agenda]

/-- So a thread that has to wait has no event due. -/
theorem due?_of_waiting (h : ¬ (w.permits t = true ∧ w.ready t = true)) : w.due? t = none := by
  cases hagenda : w.agenda t with
  | nil =>
    rw [due?, hagenda]
    rfl
  | cons d rest =>
    rw [due?_of_agenda hagenda]
    cases d with
    | trigger name c data => exact absurd (goes_of_trigger hagenda) h
    | _ => rfl

/-- Only the first duty of a thread begins an event. -/
def Ordered (w : World) : Prop := ∀ t, ∀ e ∈ (w.agenda t).tail, e.event? = none

/-- The event `due` is due and no other. -/
def Pending (w : World) (due : Option (Nat × String)) : Prop :=
  ∃ t, ∀ u, w.due? u = if u = t then due else none

theorem Pending.none_of_settled (h : w.Pending due) (hsettled : w.settled = true) : due = none := by
  obtain ⟨t, ht⟩ := h
  rw [← settled_iff.1 hsettled t, ht t, if_pos rfl]

/-- The event that a thread has due is the one that is due. -/
theorem Pending.eq_of_due (h : w.Pending due) {e : Nat × String} (he : w.due? t = some e) :
    due = some e ∧ ∀ u, u ≠ t → w.due? u = none := by
  obtain ⟨u, hu⟩ := h
  have hut : t = u := by
    by_contra hne
    rw [hu t, if_neg hne] at he
    cases he
  subst hut
  constructor
  · rw [← he, hu t, if_pos rfl]
  · intro v hne
    rw [hu v, if_neg hne]

end World

/-! ## What happens to the tables -/

/-- Id of a connection, whether it is connected and whether its queue is closed. -/
def Face.row (f : Face) : String × Bool × Bool := (f.id, f.connected, f.closed)

/-- A change of one face that leaves its row as it is. -/
theorem Face.map_row_modify (faces : List Face) (c : Nat) {g : Face → Face} (hg : ∀ f, (g f).row = f.row) :
    (faces.modify c g).map row = faces.map row := by
  refine List.ext_getElem? fun d => ?_
  rw [List.getElem?_map, List.getElem?_map, List.getElem?_modify]
  by_cases hd : c = d
  · cases hf : faces[d]? with
    | none => simp
    | some f => simp [hd, hg f]
  · simp [hd]

theorem Face.map_row_release (faces : List Face) (t : Nat) :
    (faces.map (Face.release t)).map row = faces.map row := by
  rw [List.map_map]
  refine List.map_congr_left fun f _ => ?_
  rw [Function.comp_apply, Face.release]
  split <;> rfl

namespace World

variable {w v : World} {x : Thread}

/-- The row of a connection. -/
def row? (w : World) (c : Nat) : Option (String × Bool × Bool) := (w.faces.map Face.row)[c]?

theorem row?_eq_face (w : World) (c : Nat) : w.row? c = w.faces[c]?.map Face.row := List.getElem?_map

theorem row?_of_conn {y : Conn} (hy : w.conn? c = some y) :
    w.row? c = some (y.id, y.connected, y.queue.closed) := by
  rw [row?_eq_face, getElem?_faces, hy]
  rfl

theorem row?_eq_none_iff : w.row? c = none ↔ w.conns.length ≤ c := by
  rw [row?, List.getElem?_eq_none_iff, List.length_map, length_faces]

/-- What happens to connections and tables, with the event that follows from it. -/
inductive Changes (w v : World) : Option (Nat × String) → Prop
  | nothing (hrows : ∀ c, v.row? c = w.row? c) (hsize : v.conns.length = w.conns.length)
    (hsessions : v.sessions = w.sessions) (honline : v.online = w.online) : Changes w v none
  | opens {id : String}
    (hrows : ∀ c, v.row? c = if c = w.conns.length then some (id, true, false) else w.row? c)
    (hsize : v.conns.length = w.conns.length + 1)
    (hsessions : v.sessions = putEntry id w.conns.length w.sessions)
    (honline : v.online = putEntry id w.conns.length w.online) :
    Changes w v (some (w.conns.length, "connect"))
  | closes {c : Nat} {id : String} {closed : Bool} (hrow : w.row? c = some (id, true, closed))
    (hrows : ∀ d, v.row? d = if d = c then some (id, false, true) else w.row? d)
    (hsize : v.conns.length = w.conns.length) (hsessions : v.sessions = dropEntry id w.sessions)
    (honline : v.online = dropEntry id w.online) : Changes w v (some (c, "disconnect"))

/-- Who holds a connection does not matter here. -/
theorem Changes.of_rows (hrows : v.faces.map Face.row = w.faces.map Face.row)
    (hsessions : v.sessions = w.sessions) (honline : v.online = w.online) : w.Changes v none := by
  refine .nothing ?_ ?_ hsessions honline
  · intro c
    rw [row?, hrows, row?]
  · have hsize := congrArg List.length hrows
    rwa [List.length_map, List.length_map, length_faces, length_faces] at hsize

theorem Steady.changes (h : w.Steady v) : w.Changes v none :=
  .of_rows (congrArg (List.map Face.row) h.faces) h.sessions h.online

/-- A step leaves its thread with the event that follows from what has happened to the tables. -/
theorem Does.changes {z : Thread} (h : w.Does t x d rest z v) (hrest : ∀ e ∈ rest, e.event? = none) :
    ∃ news, w.Changes v news ∧ z.agenda.head?.bind Duty.event? = news ∧
      (∀ e ∈ z.agenda.tail, e.event? = none) ∧ (d.exposed = false → news = none) := by
  have hquiet : ∀ {agenda : List Duty}, (∀ e ∈ agenda, e.event? = none) →
      agenda.head?.bind Duty.event? = none ∧ ∀ e ∈ agenda.tail, e.event? = none := by
    intro agenda hagenda
    constructor
    · cases agenda with
      | nil => rfl
      | cons e more => exact hagenda e List.mem_cons_self
    · intro e he
      exact hagenda e (List.mem_of_mem_tail he)
  cases h with
  | plans _ hleads hagenda _ hsteady =>
    have hall : ∀ e ∈ z.agenda, e.event? = none := by
      intro e he
      rw [hagenda] at he
      rcases List.mem_append.1 he with he | he
      · exact hleads.quiet e he
      · exact hrest e he
    exact ⟨none, hsteady.changes, (hquiet hall).1, (hquiet hall).2, fun _ => rfl⟩
  | opens hd hagenda _ hfaces hsessions honline =>
    refine ⟨some (w.conns.length, "connect"), .opens ?_ ?_ hsessions honline, ?_, ?_, ?_⟩
    · intro c
      rw [row?_eq_face, hfaces, row?_eq_face]
      by_cases hc : c = w.conns.length
      · rw [if_pos hc, hc, ← length_faces, List.getElem?_concat_length]
        rfl
      · rw [if_neg hc]
        rw [getElem?_concat_of_ne (by rwa [length_faces])]
    · rw [← length_faces, hfaces, List.length_append, length_faces]
      rfl
    · rw [hagenda]
      rfl
    · rw [hagenda]
      simpa [Duty.event?] using hrest
    · rw [hd]
      rintro ⟨⟩
  | @closes c y hd hy hconnected hagenda _ hfaces hsessions honline =>
    have hrow := row?_of_conn hy
    rw [hconnected] at hrow
    refine ⟨some (c, "disconnect"), .closes hrow ?_ ?_ hsessions honline, ?_, ?_, ?_⟩
    · intro d
      rw [row?_eq_face, hfaces, List.getElem?_modify, row?_eq_face]
      by_cases hd : d = c
      · rw [hd, getElem?_faces, hy]
        simp [Face.row, Face.shut, Conn.face]
      · simp [hd, Ne.symm hd]
    · rw [← length_faces, hfaces, List.length_modify, length_faces]
    · rw [hagenda]
      rfl
    · rw [hagenda]
      exact hrest
    · rw [hd]
      rintro ⟨⟩
  | locks _ hagenda _ hfaces hsessions honline | unlocks _ hagenda _ hfaces hsessions honline =>
    rw [hagenda]
    refine ⟨none, .of_rows ?_ hsessions honline, (hquiet hrest).1, (hquiet hrest).2, fun _ => rfl⟩
    rw [hfaces]
    exact Face.map_row_modify w.faces _ fun _ => rfl
  | throws _ hagenda _ hfaces hsessions honline =>
    rw [hagenda]
    refine ⟨none, .of_rows ?_ hsessions honline, rfl, by simp, fun _ => rfl⟩
    rw [hfaces]
    exact Face.map_row_release w.faces t

/-- Threads have got a further duty at most, which begins no event, drains no session and enters no handler, where no
event is due. -/
def Adds (w v : World) : Prop :=
  ∀ u, v.agenda u = w.agenda u ∨ ∃ d, v.agenda u = d :: w.agenda u ∧ d.event? = none ∧ d.session? = none ∧
    d.isReact = false ∧ w.due? u = none

theorem Adds.due? (h : w.Adds v) (u : Nat) : v.due? u = w.due? u := by
  rcases h u with hsame | ⟨d, hagenda, hd, -, -, hnone⟩
  · exact due?_congr hsame
  · rw [due?_of_agenda hagenda, hd, hnone]

theorem Adds.ordered (h : w.Adds v) (hordered : w.Ordered) : v.Ordered := by
  intro u e he
  rcases h u with hsame | ⟨d, hagenda, -, -, -, hnone⟩
  · rw [hsame] at he
    exact hordered u e he
  · rw [hagenda, List.tail_cons] at he
    -- what stood first does not any more, but it was no event
    cases hw : w.agenda u with
    | nil =>
      rw [hw] at he
      cases he
    | cons d' rest =>
      rw [hw] at he
      rcases List.mem_cons.1 he with rfl | he
      · rwa [due?_of_agenda hw] at hnone
      · exact hordered u e (by rwa [hw])

theorem Adds.pending (h : w.Adds v) (hpending : w.Pending due) : v.Pending due := by
  obtain ⟨t, ht⟩ := hpending
  exact ⟨t, fun u => by rw [h.due? u, ht u]⟩

theorem Adds.of_threads_eq (h : v.threads = w.threads) : w.Adds v :=
  fun _ => Or.inl (agenda_congr (by rw [h]))

/-- A handler does something else first. -/
theorem agenda_push {number : Nat} {a : Act} (hx : w.Next t x (.act number c data a) rest) (u : Nat) :
    (w.push t [d]).agenda u = w.agenda u ∨ (w.push t [d]).agenda u = d :: w.agenda u ∧ w.due? u = none := by
  by_cases hu : u = t
  · subst hu
    rw [agenda_of_some (threads_push hx.thread [d]), agenda_of_some hx.thread, due?_of_agenda hx.agenda_eq]
    exact Or.inr ⟨rfl, rfl⟩
  · refine Or.inl (agenda_congr ?_)
    rw [World.push, threads_updateThread, if_neg hu]

end World

/-- What a move starts begins no event at once, drains nothing and enters no handler. -/
theorem Move.quiet_of_duty? {m : Move} {w : World} (h : m.duty? w = some d) :
    d.event? = none ∧ d.session? = none ∧ d.isReact = false := by
  cases m with
  | request | send | broadcast | close | shutdown | sweep =>
    cases h
    exact ⟨rfl, rfl, rfl⟩
  | _ => cases h

/-- A move that is no step calls nobody, and tells of nothing. -/
theorem History.calls_after (h : History) {m : Move} (hm : ∀ t, m ≠ .step t) :
    (h.after m).world.calls = h.world.calls ∧ (h.after m).told = h.told := by
  cases m with
  | step t => exact absurd rfl (hm t)
  | act t a =>
    unfold after
    dsimp only
    split <;> exact ⟨rfl, rfl⟩
  | _ => exact ⟨rfl, rfl⟩

namespace World.Turns

variable {w v : World} {m : Move} (h : w.Turns m v) (hm : ∀ t, m ≠ .step t)
include h hm

/-- A move that is no step starts a thread or adds an act to one, at most. -/
theorem grows (t : Nat) : v.agenda t = w.agenda t ∨ ∃ d, v.agenda t = d :: w.agenda t ∧ w.due? t = none ∧
    ((∃ number c data a, d = .act number c data a) ∨ m.duty? w = some d) := by
  cases h with
  | still hthreads => exact Or.inl (agenda_congr (by rw [hthreads]))
  | steps => exact absurd rfl (hm _)
  | spawns hd hthreads =>
    refine (agenda_spawn hthreads t).imp And.right ?_
    rintro ⟨hu, hnil, hnew⟩
    exact ⟨_, by rw [hnew, hnil], due?_of_le hu.ge, Or.inr hd⟩
  | acts hx hv =>
    subst hv
    refine (agenda_push hx t).imp_right ?_
    rintro ⟨hmore, hnone⟩
    exact ⟨_, hmore, hnone, Or.inl ⟨_, _, _, _, rfl⟩⟩
  | cancels hv | severs hv | prefers hv =>
    subst hv
    exact Or.inl (agenda_flag _ t fun _ => rfl)

theorem adds : w.Adds v := by
  intro u
  refine (h.grows hm u).imp_right ?_
  rintro ⟨d, hmore, hnone, ⟨_, _, _, _, rfl⟩ | hd⟩
  · exact ⟨_, hmore, rfl, rfl, rfl, hnone⟩
  · obtain ⟨hevent, hsession, hreact⟩ := Move.quiet_of_duty? hd
    exact ⟨d, hmore, hevent, hsession, hreact, hnone⟩

theorem steady : w.Steady v := by
  rcases h.steady_or_does with hsteady | ⟨t, _, _, _, _, hstep, -⟩
  · exact hsteady
  · exact absurd hstep (hm t)

end World.Turns

namespace Chronicle

/-- The events that have begun, with the one that is due, are `record`. -/
def Records (s : Chronicle) (record : List (Nat × String)) : Prop :=
  s.world.Ordered ∧ ∃ due, s.world.Pending due ∧ record = s.events ++ due.toList

theorem Records.eq_events {s : Chronicle} (h : s.Records record) (hsettled : s.world.settled = true) :
    record = s.events := by
  obtain ⟨-, due, hpending, hrecord⟩ := h
  rw [hrecord, hpending.none_of_settled hsettled, Option.toList_none, List.append_nil]

/-- A step of a thread that may go on. -/
theorem records_step {s : Chronicle} (h : s.Records record) (hpermits : s.world.permits t = true) {x : Thread}
    {v : World} (hx : s.world.Next t x d rest)
    (hsteps : s.world.Steps t x d rest v) (hothers : ∀ u, u ≠ t → v.threads[u]? = s.world.threads[u]?) :
    ∃ news due, s.world.Changes v news ∧ v.Ordered ∧ v.Pending due ∧
      record ++ news.toList = s.events ++ (s.world.due? t).toList ++ due.toList := by
  obtain ⟨hordered, due, hpending, hrecord⟩ := h
  have hw : s.world.agenda t = d :: rest := hx.agenda_eq
  have hdue : s.world.due? t = d.event? := World.due?_of_agenda hw
  obtain ⟨z, hz, -, hdoes⟩ := hsteps
  have hrest : ∀ e ∈ rest, e.event? = none := fun e he => hordered t e (by rwa [hw])
  obtain ⟨news, hchanges, hnews, htail, hplain⟩ := hdoes.changes hrest
  have hv : v.due? t = news := by rw [World.due?, World.agenda_of_some hz, hnews]
  have hsame : ∀ u, u ≠ t → v.due? u = s.world.due? u :=
    fun u hu => World.due?_congr (World.agenda_congr (hothers u hu))
  have hordered' : v.Ordered := by
    intro u e he
    by_cases hu : u = t
    · subst hu
      rw [World.agenda_of_some hz] at he
      exact htail e he
    · rw [World.agenda_congr (hothers u hu)] at he
      exact hordered u e he
  cases hd : d.exposed with
  | true =>
    -- no event is due, and the step may make one due
    have hsettled := World.settled_of_exposed hw hd hpermits
    have hnone := World.settled_iff.1 hsettled
    refine ⟨news, news, hchanges, hordered', ⟨t, fun u => ?_⟩, ?_⟩
    · by_cases hu : u = t
      · rw [hu, hv, if_pos rfl]
      · rw [hsame u hu, hnone u, if_neg hu]
    · rw [hrecord, hpending.none_of_settled hsettled, hnone t]
  | false =>
    obtain rfl := hplain hd
    cases he : d.event? with
    | none =>
      -- the step has nothing to do with events
      refine ⟨none, due, hchanges, hordered', ?_, by rw [hrecord, hdue, he]; simp⟩
      obtain ⟨u, hu⟩ := hpending
      refine ⟨u, fun u' => ?_⟩
      rw [← hu u']
      by_cases hut : u' = t
      · rw [hut, hv, hdue, he]
      · exact hsame u' hut
    | some e =>
      -- the step begins the event that is due
      obtain ⟨rfl, hnone⟩ := hpending.eq_of_due (hdue.trans he)
      refine ⟨none, none, hchanges, hordered', ⟨t, fun u => ?_⟩, by rw [hrecord, hdue, he]⟩
      by_cases hut : u = t
      · rw [hut, hv]
        simp
      · rw [hsame u hut, hnone u hut]
        simp

/-- A step begins the event that is due, which does not have to wait. -/
theorem events_step (s : Chronicle) (t : Nat) :
    (s.after (.move (.step t))).events = s.events ++ (s.world.due? t).toList := by
  rw [after]
  split
  next => rfl
  next hpermits =>
    rw [World.due?_of_waiting fun hgoes => hpermits hgoes.1]
    exact (List.append_nil _).symm

/-- A turn that does no duty adds some at most. -/
theorem adds_after (s : Chronicle) {turn : Turn} (hturn : ∀ t, turn ≠ .move (.step t)) :
    s.world.Adds (s.after turn).world ∧ s.world.Steady (s.after turn).world ∧
      (s.after turn).events = s.events ∧ (s.after turn).world.calls = s.world.calls := by
  cases turn with
  | closes t c =>
    rw [after]
    split
    next hacting =>
      obtain ⟨⟨number, c', data⟩, hacting⟩ := Option.isSome_iff_exists.1 hacting
      obtain ⟨x, a, rest, hx⟩ := World.acting?_eq_some hacting
      refine ⟨fun u => (World.agenda_push hx u).imp_right ?_, .updateThread _ t _, rfl, rfl⟩
      exact fun hmore => ⟨_, hmore.1, rfl, rfl, rfl, hmore.2⟩
    next => exact ⟨.of_threads_eq rfl, .refl _, rfl, rfl⟩
  | move m =>
    have hturns := s.toHistory.turns_after m
    cases m with
    | step t => exact absurd rfl (hturn t)
    | _ =>
      exact ⟨hturns.adds (by rintro t ⟨⟩), hturns.steady (by rintro t ⟨⟩), rfl, (s.calls_after (by rintro t ⟨⟩)).1⟩

/-- What happens to the tables is what is recorded. -/
theorem records_after {s : Chronicle} (h : s.Records record) (turn : Turn) :
    ∃ news, s.world.Changes (s.after turn).world news ∧
      (s.after turn).Records (record ++ news.toList) := by
  have hadds : ∀ s' : Chronicle, s.world.Adds s'.world → s.world.Steady s'.world →
      s'.events = s.events → ∃ news, s.world.Changes s'.world news ∧
        s'.Records (record ++ news.toList) := by
    intro s' hadds hsteady hevents
    obtain ⟨hordered, due, hpending, hrecord⟩ := h
    refine ⟨none, hsteady.changes, hadds.ordered hordered, due, hadds.pending hpending, ?_⟩
    rw [hevents, hrecord, Option.toList_none, List.append_nil]
  by_cases hturn : ∃ t, turn = .move (.step t)
  · obtain ⟨t, rfl⟩ := hturn
    have hturns := s.toHistory.turns_after (.step t)
    rw [after]
    split
    next hpermits =>
      cases hturns with
      | still hthreads hsteady hready =>
        refine hadds _ (.of_threads_eq hthreads) hsteady ?_
        have hwaits : ¬ (s.world.permits t = true ∧ s.world.ready t = true) := by simp [hready t rfl]
        rw [World.due?_of_waiting hwaits, Option.toList_none, List.append_nil]
      | steps _ hx hv =>
        obtain ⟨news, due, hchanges, hordered, hpending, hrecord⟩ :=
          records_step h hpermits hx (hv ▸ hx.steps) (hv ▸ hx.effect.others)
        exact ⟨news, hchanges, hordered, due, hpending, hrecord⟩
      | spawns hd => cases hd
    next => exact hadds s (.of_threads_eq rfl) (.refl _) rfl
  · obtain ⟨ha, hs, hevents, -⟩ := s.adds_after fun t heq => hturn ⟨t, heq⟩
    exact hadds _ ha hs hevents

end Chronicle

/-! ## Tables and records -/

/-- An id that is not in the table comes last. -/
theorem putEntry_of_lookup_eq_none (h : table.lookup id = none) (c : Nat) :
    putEntry id c table = table ++ [(id, c)] := by
  induction table with
  | nil => rfl
  | cons e more ih =>
    rw [List.lookup_eq_none_iff] at h
    have hne : (e.1 == id) = false := by
      grind
    rw [putEntry, hne, ih]
    · rfl
    · exact List.lookup_eq_none_iff.2 fun p hp => h p (List.mem_cons_of_mem _ hp)

theorem dropEntry_of_not_mem (h : id ∉ table.map Prod.fst) : dropEntry id table = table := by
  refine List.filter_eq_self.2 fun e he => ?_
  rw [bne_iff_ne]
  rintro rfl
  exact h (List.mem_map_of_mem he)

/-- A table without an entry is shorter by one. -/
theorem length_dropEntry (hkeys : (table.map Prod.fst).Nodup) (h : table.lookup id = some c) :
    (dropEntry id table).length + 1 = table.length := by
  induction table with
  | nil => cases h
  | cons e more ih =>
    obtain ⟨hnot, hmore⟩ := List.nodup_cons.1 hkeys
    by_cases he : e.1 = id
    · have hdrop : dropEntry id (e :: more) = dropEntry id more := by simp [dropEntry, he]
      rw [hdrop, dropEntry_of_not_mem (he ▸ hnot), List.length_cons]
    · have hdrop : dropEntry id (e :: more) = e :: dropEntry id more := by simp [dropEntry, he]
      rw [List.lookup_cons, beq_false_of_ne (Ne.symm he)] at h
      rw [hdrop, List.length_cons, List.length_cons, ih hmore h]

/-- The events of a connection. -/
def story (connected : Bool) : List String :=
  if connected then ["connect"] else ["connect", "disconnect"]

/-- Number of events of a name. -/
def tally (event : String) (record : List (Nat × String)) : Nat := record.countP fun e => e.2 == event

theorem tally_append (event : String) (record more : List (Nat × String)) :
    tally event (record ++ more) = tally event record + tally event more :=
  List.countP_append

namespace World

variable {w v : World}

theorem idOf?_eq_row (w : World) (c : Nat) : w.idOf? c = (w.row? c).map Prod.fst := by
  rw [idOf?_eq_face, row?_eq_face, Option.map_map]
  rfl

/-- Tables, connections and the events on record agree. -/
structure Registered (w : World) (record : List (Nat × String)) : Prop where
  sessions : w.sessions = w.online
  keys : (w.online.map Prod.fst).Nodup
  lookup : ∀ id c, w.online.lookup id = some c ↔ w.row? c = some (id, true, false)
  closed : ∀ c id connected closed, w.row? c = some (id, connected, closed) → closed = !connected
  told : ∀ c id connected closed, w.row? c = some (id, connected, closed) →
    entriesOf c record = story connected
  unborn : ∀ c, w.row? c = none → entriesOf c record = []
  opened : tally "connect" record = w.conns.length
  count : w.online.length + tally "disconnect" record = w.conns.length

theorem registered_new (settings : Settings) (limiter : Option Limiter) (ids : Ids) :
    (new settings limiter ids).Registered [] where
  sessions := rfl
  keys := List.nodup_nil
  lookup id c := by
    constructor
    · rintro ⟨⟩
    · rintro ⟨⟩
  closed _ _ _ _ h := by cases h
  told _ _ _ _ h := by cases h
  unborn _ _ := rfl
  opened := rfl
  count := rfl

namespace Registered

/-- A new session has an id of its own. -/
theorem opens (h : w.Registered record)
    (hrows : ∀ c, v.row? c = if c = w.conns.length then some (id, true, false) else w.row? c)
    (hsize : v.conns.length = w.conns.length + 1)
    (hsessions : v.sessions = putEntry id w.conns.length w.sessions)
    (honline : v.online = putEntry id w.conns.length w.online) (hdistinct : v.Distinct) :
    v.Registered (record ++ [(w.conns.length, "connect")]) := by
  have hnew : w.row? w.conns.length = none := row?_eq_none_iff.2 le_rfl
  -- nobody has had the id before
  have hfresh : ∀ c connected closed, w.row? c ≠ some (id, connected, closed) := by
    intro c connected closed hc
    have hne : c ≠ w.conns.length := by
      rintro rfl
      cases hnew.symm.trans hc
    apply hne
    apply distinct_iff.1 hdistinct c w.conns.length id
    · rw [idOf?_eq_row, hrows, if_neg hne, hc]
      rfl
    · rw [idOf?_eq_row, hrows, if_pos rfl]
      rfl
  have hnone : w.online.lookup id = none := by
    cases hlookup : w.online.lookup id with
    | none => rfl
    | some c => exact absurd ((h.lookup id c).1 hlookup) (hfresh c true false)
  constructor
  case sessions => rw [hsessions, honline, h.sessions]
  case keys =>
    rw [honline, putEntry_of_lookup_eq_none hnone, List.map_append, List.nodup_append]
    refine ⟨h.keys, List.nodup_singleton _, ?_⟩
    rw [List.lookup_eq_none_iff] at hnone
    intro key hkey key' hkey'
    obtain ⟨e, he, rfl⟩ := List.mem_map.1 hkey
    grind
  case lookup =>
    intro key c
    rw [honline, lookup_putEntry, hrows]
    by_cases hkey : key = id
    · subst hkey
      rw [if_pos rfl]
      by_cases hc : c = w.conns.length
      · rw [hc]
        simp
      · rw [if_neg hc]
        constructor
        · rintro ⟨⟩
          exact absurd rfl hc
        · intro hrow
          exact absurd hrow (hfresh c true false)
    · rw [if_neg hkey, h.lookup]
      by_cases hc : c = w.conns.length
      · rw [hc, hnew]
        simp [Ne.symm hkey]
      · rw [if_neg hc]
  case closed =>
    intro c id' connected closed hrow
    rw [hrows] at hrow
    split at hrow
    · cases hrow
      rfl
    · exact h.closed c id' connected closed hrow
  case told =>
    intro c id' connected closed hrow
    rw [hrows] at hrow
    rw [entriesOf_append, entriesOf_singleton]
    split at hrow
    next hc =>
      cases hrow
      rw [h.unborn c (hc ▸ hnew), if_pos hc.symm]
      rfl
    next hc => rw [if_neg (Ne.symm hc), List.append_nil, h.told c id' connected closed hrow]
  case unborn =>
    intro c hrow
    rw [hrows] at hrow
    split at hrow
    · cases hrow
    next hc => rw [entriesOf_append, entriesOf_singleton, if_neg (Ne.symm hc), h.unborn c hrow]; rfl
  case opened =>
    rw [tally_append, h.opened, hsize]
    rfl
  case count =>
    have hcount := h.count
    rw [tally_append, honline, putEntry_of_lookup_eq_none hnone, List.length_append]
    have hno : tally "disconnect" [(w.conns.length, "connect")] = 0 := rfl
    rw [List.length_singleton]
    omega

/-- A session that is closed leaves the tables, and nobody else does. -/
theorem closes (h : w.Registered record) {closed : Bool} (hrow : w.row? c = some (id, true, closed))
    (hrows : ∀ d, v.row? d = if d = c then some (id, false, true) else w.row? d)
    (hsize : v.conns.length = w.conns.length) (hsessions : v.sessions = dropEntry id w.sessions)
    (honline : v.online = dropEntry id w.online) : v.Registered (record ++ [(c, "disconnect")]) := by
  obtain rfl := h.closed c id true closed hrow
  have hlookup : w.online.lookup id = some c := (h.lookup id c).2 hrow
  constructor
  case sessions => rw [hsessions, honline, h.sessions]
  case keys =>
    rw [honline]
    exact h.keys.sublist (List.Sublist.map _ List.filter_sublist)
  case lookup =>
    intro key d
    rw [honline, lookup_dropEntry, hrows]
    by_cases hd : d = c
    · rw [hd]
      by_cases hkey : key = id
      · simp [hkey]
      · rw [if_neg hkey, h.lookup, hrow]
        simp [Ne.symm hkey]
    · rw [if_neg hd, ← h.lookup]
      by_cases hkey : key = id
      · rw [hkey, hlookup]
        simp [Ne.symm hd]
      · rw [if_neg hkey]
  case closed =>
    intro d id' connected closed' hrow'
    rw [hrows] at hrow'
    split at hrow'
    · cases hrow'
      rfl
    · exact h.closed d id' connected closed' hrow'
  case told =>
    intro d id' connected closed' hrow'
    rw [hrows] at hrow'
    rw [entriesOf_append, entriesOf_singleton]
    split at hrow'
    next hd =>
      cases hrow'
      rw [if_pos hd.symm, h.told d id true _ (hd ▸ hrow)]
      rfl
    next hd => rw [if_neg (Ne.symm hd), List.append_nil, h.told d id' connected closed' hrow']
  case unborn =>
    intro d hrow'
    rw [hrows] at hrow'
    split at hrow'
    · cases hrow'
    next hd => rw [entriesOf_append, entriesOf_singleton, if_neg (Ne.symm hd), h.unborn d hrow']; rfl
  case opened =>
    rw [tally_append, h.opened, hsize]
    rfl
  case count =>
    have hcount := h.count
    have hone : tally "disconnect" [(c, "disconnect")] = 1 := rfl
    have hdrop := length_dropEntry h.keys hlookup
    rw [tally_append, honline]
    omega

/-- What happens to the tables keeps them in step with the record. -/
theorem changes (h : w.Registered record) (hchanges : w.Changes v news) (hdistinct : v.Distinct) :
    v.Registered (record ++ news.toList) := by
  cases hchanges with
  | nothing hrows hsize hsessions honline =>
    rw [Option.toList_none, List.append_nil]
    constructor
    case sessions => rw [hsessions, honline, h.sessions]
    case keys => rw [honline]; exact h.keys
    case lookup => intro id c; rw [honline, hrows, h.lookup]
    case closed => intro c; rw [hrows]; exact h.closed c
    case told => intro c; rw [hrows]; exact h.told c
    case unborn => intro c; rw [hrows]; exact h.unborn c
    case opened => rw [hsize, h.opened]
    case count => rw [honline, hsize, h.count]
  | opens hrows hsize hsessions honline => exact h.opens hrows hsize hsessions honline hdistinct
  | closes hrow hrows hsize hsessions honline => exact h.closes hrow hrows hsize hsessions honline

end Registered

/-- Whatever happens to the tables, ids stay. -/
theorem Changes.idOf? (h : w.Changes v news) (hid : w.idOf? c = some id) : v.idOf? c = some id := by
  rw [idOf?_eq_row] at hid ⊢
  cases h with
  | nothing hrows => rwa [hrows]
  | opens hrows =>
    rw [hrows]
    by_cases hc : c = w.conns.length
    · rw [row?_eq_none_iff.2 (Nat.le_of_eq hc.symm)] at hid
      cases hid
    · rwa [if_neg hc]
  | closes hrow hrows =>
    rw [hrows]
    split
    next hc =>
      rw [hc, hrow] at hid
      exact hid
    next => exact hid

theorem Changes.size_le (h : w.Changes v news) : w.conns.length ≤ v.conns.length := by
  cases h with
  | nothing _ hsize | opens _ hsize | closes _ _ hsize => omega

/-- Ids that do not repeat do not do so as long as there are no new ones. -/
theorem Distinct.of_size (h : w.Distinct) (hkept : ∀ c id, w.idOf? c = some id → v.idOf? c = some id)
    (hsize : v.conns.length = w.conns.length) : v.Distinct := by
  have hback : ∀ c id, v.idOf? c = some id → w.idOf? c = some id := by
    intro c id hv
    cases hw : w.idOf? c with
    | none =>
      rw [idOf?_eq_row, Option.map_eq_none_iff, row?_eq_none_iff] at hw
      rw [idOf?_eq_row, row?_eq_none_iff.2 (hsize ▸ hw)] at hv
      cases hv
    | some id' => rw [← hv, hkept c id' hw]
  rw [distinct_iff] at h ⊢
  intro c d id hc hd
  exact h c d id (hback c id hc) (hback d id hd)

end World

namespace Chronicle

variable (settings : Settings) (limiter : Option Limiter) (ids : Ids)

theorem records_new : Chronicle.Records { toHistory := .new settings limiter ids } [] := by
  constructor
  · intro t e he
    cases he
  · refine ⟨none, ⟨0, fun u => ?_⟩, rfl⟩
    rw [ite_self]
    rfl

theorem records_run (turns : List Turn) : ∃ record, (run settings limiter ids turns).Records record := by
  induction turns using List.reverseRecOn with
  | nil => exact ⟨[], records_new settings limiter ids⟩
  | append_singleton front turn ih =>
    obtain ⟨record, hrecords⟩ := ih
    obtain ⟨news, -, hrecords'⟩ := records_after hrecords turn
    rw [run_concat]
    exact ⟨record ++ news.toList, hrecords'⟩

variable {settings limiter ids}

/-- The ids of connections stay along a run. -/
theorem idOf?_append (front back : List Turn) (c : Nat) (id : String)
    (hid : (run settings limiter ids front).world.idOf? c = some id) :
    (run settings limiter ids (front ++ back)).world.idOf? c = some id := by
  induction back using List.reverseRecOn with
  | nil => rwa [List.append_nil]
  | append_singleton back turn ih =>
    obtain ⟨record, hrecords⟩ := records_run settings limiter ids (front ++ back)
    obtain ⟨news, hchanges, -⟩ := records_after hrecords turn
    rw [← List.append_assoc, run_concat]
    exact hchanges.idOf? ih

/-- Along every run the tables agree with the events, if ids do not repeat. -/
theorem registered_run {turns : List Turn} (hdistinct : (run settings limiter ids turns).world.Distinct) :
    ∃ record, (run settings limiter ids turns).Records record ∧
      (run settings limiter ids turns).world.Registered record := by
  induction turns using List.reverseRecOn with
  | nil => exact ⟨[], records_new settings limiter ids, World.registered_new settings limiter ids⟩
  | append_singleton front turn ih =>
    have hbefore := hdistinct.of_kept (idOf?_append front [turn])
    obtain ⟨record, hrecords, hregistered⟩ := ih hbefore
    rw [run_concat] at hdistinct ⊢
    obtain ⟨news, hchanges, hrecords'⟩ := records_after hrecords turn
    exact ⟨record ++ news.toList, hrecords', hregistered.changes hchanges hdistinct⟩

end Chronicle

end PollSocket.Server
