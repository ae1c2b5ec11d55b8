import PollSocket.Proofs.Server.Sessions

set_option autoImplicit false

/-!
# Events in order

The trail of a run is the list of all events that handlers are told of, messages among them, in the order in
which they begin. A session is told to begin before any message of it, since a drain has to find the session in
the tables (`connect_of_session`), and it is told to end at most once.

Closing a session does not stop the drains that have found it before: they tell of the messages that they have
left, and of nothing else (`left_after`). So messages may come after the end (`late_messages`), and none does if
no drain has any left when the session is closed.
-/

namespace PollSocket.Server

variable {d : Duty} {record : List (Nat × String)} {duties : List Duty} {back front turns : List Turn}
  {c t : Nat} {turn : Turn}

/-! ## Trails -/

/-- An event, with the thread that tells the handlers of it. -/
structure Event where
  thread : Nat
  conn : Nat
  name : String
  data : String
  deriving DecidableEq

/-- The event that a duty of thread `t` begins. -/
def Duty.begins? (t : Nat) : Duty → Option Event
  | .trigger name c data => some ⟨t, c, name, data⟩
  | _ => none

/-- Names of the events of connection `c`. -/
def namesOf (c : Nat) (events : List Event) : List String :=
  entriesOf c (events.map fun e => (e.conn, e.name))

/-- Messages of connection `c` that thread `t` tells of. -/
def messagesOf (t c : Nat) (events : List Event) : List String :=
  events.filterMap fun e => if e.thread = t ∧ e.conn = c ∧ e.name = "message" then some e.data else none

theorem namesOf_append (c : Nat) (front back : List Event) :
    namesOf c (front ++ back) = namesOf c front ++ namesOf c back := by
  rw [namesOf, List.map_append, entriesOf_append, namesOf, namesOf]

theorem messagesOf_append (t c : Nat) (front back : List Event) :
    messagesOf t c (front ++ back) = messagesOf t c front ++ messagesOf t c back :=
  List.filterMap_append

theorem messagesOf_eq_nil {events : List Event} (h : ∀ e ∈ events, e.thread ≠ t ∨ e.name ≠ "message") :
    messagesOf t c events = [] := by
  refine List.filterMap_eq_nil_iff.2 fun e he => if_neg ?_
  rintro ⟨ht, -, hname⟩
  rcases h e he with hne | hne
  · exact hne ht
  · exact hne hname

namespace Chronicle

/-- The event that a turn begins. -/
def begins? (s : Chronicle) : Turn → Option Event
  | .move (.step t) => (s.world.agenda t).head?.bind (Duty.begins? t)
  | _ => none

/-- The events that turns begin, one after another. -/
def trail : Chronicle → List Turn → List Event
  | _, [] => []
  | s, turn :: more => (s.begins? turn).toList ++ (s.after turn).trail more

theorem trail_append (s : Chronicle) (front back : List Turn) :
    s.trail (front ++ back) = s.trail front ++ (front.foldl after s).trail back := by
  induction front generalizing s with
  | nil => rfl
  | cons turn more ih =>
    rw [List.cons_append, trail, ih, trail, List.append_assoc, List.foldl_cons]

theorem trail_concat (settings : Settings) (limiter : Option Limiter) (ids : Ids) (turns : List Turn)
    (turn : Turn) : (run settings limiter ids []).trail (turns ++ [turn]) =
      (run settings limiter ids []).trail turns ++ ((run settings limiter ids turns).begins? turn).toList := by
  rw [trail_append]
  exact congrArg _ (List.append_nil _)

theorem begins?_eq_some {s : Chronicle} {e : Event} (h : s.begins? turn = some e) :
    ∃ rest, turn = .move (.step e.thread) ∧
      s.world.agenda e.thread = .trigger e.name e.conn e.data :: rest := by
  cases turn with
  | closes t c => cases h
  | move m =>
    cases m with
    | step t =>
      rw [begins?] at h
      cases hagenda : s.world.agenda t with
      | nil =>
        rw [hagenda] at h
        cases h
      | cons d rest =>
        rw [hagenda, List.head?_cons] at h
        cases d with
        | trigger name c data =>
          cases h
          exact ⟨rest, rfl, hagenda⟩
        | _ => cases h
    | _ =>
      cases h

/-- The events on record are those of the trail that are no messages. -/
theorem entriesOf_events_after (s : Chronicle) (turn : Turn) (c : Nat) :
    entriesOf c (s.after turn).events = entriesOf c s.events ++
      (namesOf c (s.begins? turn).toList).filter (· ≠ "message") := by
  by_cases hturn : ∃ t, turn = .move (.step t)
  · obtain ⟨t, rfl⟩ := hturn
    have hdue : entriesOf c (s.world.due? t).toList =
        (namesOf c (s.begins? (.move (.step t))).toList).filter (· ≠ "message") := by
      rw [World.due?, begins?]
      cases hhead : (s.world.agenda t).head? with
      | none => rfl
      | some d =>
        rw [Option.bind_some]
        cases d with
        | trigger name c' data =>
          by_cases hname : name = "message" <;> by_cases hc : c' = c <;>
            simp [Duty.event?, Duty.begins?, namesOf, entriesOf, hname, hc]
        | _ => rfl
    rw [← hdue, events_step, entriesOf_append]
  · obtain ⟨-, -, hevents, -⟩ := s.adds_after fun t heq => hturn ⟨t, heq⟩
    have hnone : s.begins? turn = none := by
      cases h : s.begins? turn with
      | none => rfl
      | some e =>
        obtain ⟨-, rfl, -⟩ := begins?_eq_some h
        exact absurd ⟨_, rfl⟩ hturn
    rw [hevents, hnone]
    simp [namesOf]

end Chronicle

/-! ## Order -/

/-- Names of the events of a session, which are `plain` but for the messages, of which `late` come after the
end. -/
inductive InOrder : List String → Nat → List String → Prop
  | unborn : InOrder [] 0 []
  | online (n : Nat) : InOrder ["connect"] 0 ("connect" :: List.replicate n "message")
  | ended (n late : Nat) : InOrder ["connect", "disconnect"] late
      ("connect" :: List.replicate n "message" ++ "disconnect" :: List.replicate late "message")

namespace InOrder

variable {plain names : List String} {late : Nat}

/-- Another message, after the beginning. -/
theorem message (h : InOrder plain late names) (hplain : plain ≠ []) :
    ∃ late', InOrder plain late' (names ++ ["message"]) ∧ (plain = ["connect"] → late' = late) := by
  have hmore : ∀ n, List.replicate n "message" ++ ["message"] = List.replicate (n + 1) "message" :=
    fun n => List.replicate_succ'.symm
  cases h with
  | unborn => exact absurd rfl hplain
  | online n =>
    refine ⟨0, ?_, fun _ => rfl⟩
    rw [List.cons_append, hmore]
    exact .online (n + 1)
  | ended n late =>
    refine ⟨late + 1, ?_, by simp⟩
    have hlate := InOrder.ended n (late + 1)
    rwa [← hmore, ← List.cons_append, ← List.append_assoc] at hlate

/-- The beginning or the end. -/
theorem boundary (h : InOrder plain late names) {name : String}
    (hwithin : plain ++ [name] <+: ["connect", "disconnect"]) :
    InOrder (plain ++ [name]) late (names ++ [name]) := by
  cases h with
  | unborn =>
    obtain rfl : name = "connect" := by simpa using hwithin
    exact .online 0
  | online n =>
    obtain rfl : name = "disconnect" := by simpa using hwithin
    exact .ended n 0
  | ended n late =>
    have hlength := hwithin.length_le
    simp at hlength

end InOrder

/-! ## Messages that are left -/

/-- Messages of connection `c` that a duty is still to tell of. -/
def Duty.left (c : Nat) : Duty → List String
  | .trigger name d m => if name = "message" ∧ d = c then [m] else []
  | .deliver d messages => if d = c then messages else []
  | _ => []

theorem Duty.left_eq_nil (h : d.session? ≠ some c) : d.left c = [] := by
  cases d with
  | trigger name c' m =>
    refine if_neg ?_
    rintro ⟨rfl, rfl⟩
    exact h rfl
  | deliver c' messages =>
    refine if_neg ?_
    rintro rfl
    exact h rfl
  | _ => rfl

namespace World

/-- Messages of connection `c` that thread `t` is still to tell of. -/
def left (w : World) (t c : Nat) : List String := (w.agenda t).flatMap (Duty.left c)

variable {w : World} {x : Thread} {rest : List Duty}

theorem left_of_agenda (h : w.agenda t = duties) (c : Nat) : w.left t c = duties.flatMap (Duty.left c) := by
  rw [left, h]

theorem flatMap_left_eq_nil (h : ∀ e ∈ duties, e.session? ≠ some c) : duties.flatMap (Duty.left c) = [] :=
  List.flatMap_eq_nil_iff.2 fun e he => Duty.left_eq_nil (h e he)

end World

/-- A duty tells of what it was to tell of, or plans to: nothing is added for a session that no request finds. -/
theorem Duty.Plans.left {w : World} (h : d.Plans w duties) (t : Nat)
    (hlive : ∀ id, w.liveSession? id ≠ some c) :
    messagesOf t c (d.begins? t).toList ++ duties.flatMap (Duty.left c) = d.left c := by
  cases h with
  | aside hd hduties =>
    have hnone : duties.flatMap (Duty.left c) = [] := by
      apply World.flatMap_left_eq_nil
      intro e he
      rw [(hduties e he).1]
      nofun
    rw [hnone]
    cases d with
    | trigger name c' m =>
      by_cases hname : name = "message" <;> by_cases hc : c' = c <;>
        simp [Duty.begins?, messagesOf, Duty.left, hname, hc]
    | deliver c' messages =>
      cases messages with
      | nil => simp [Duty.begins?, messagesOf, Duty.left]
      | cons m more => cases hd
    | _ => rfl
  | tells c' m more => by_cases hc : c' = c <;> simp [Duty.begins?, messagesOf, Duty.left, hc]
  | @takes _ e c' hd he =>
    have hquiet : ∀ {f : Duty}, f.takesFrom? = some c' → f.left c = [] ∧ f.begins? t = none := by
      intro f hf
      cases f with
      | take | wait | reply => exact ⟨rfl, rfl⟩
      | _ => cases hf
    rw [(hquiet hd).1, (hquiet hd).2, List.flatMap_singleton, (hquiet he).1]
    rfl
  | @admits r id c' hfound messages =>
    have hc : c' ≠ c := by
      rintro rfl
      exact hlive id hfound
    simp [Duty.begins?, messagesOf, Duty.left, hc]

namespace World

variable {w : World} {x : Thread} {rest : List Duty}

/-- A step of a thread tells of what comes first among the messages that it has left, and leaves the others,
unless a handler throws. -/
theorem left_step (hx : w.Next t x d rest)
    (hlive : ∀ id, w.liveSession? id ≠ some c) :
    messagesOf t c (d.begins? t).toList ++ (w.stepThread t).left t c <+: w.left t c := by
  have hbefore : w.left t c = d.left c ++ rest.flatMap (Duty.left c) := by
    rw [left_of_agenda (hx.agenda_eq), List.flatMap_cons]
  obtain ⟨y, hy, hgoes⟩ := hx.goes
  rcases hgoes.agenda with ⟨duties, hya, hplans⟩ | ⟨hside, -, hya⟩
  · rw [left_of_agenda ((agenda_of_some hy).trans hya), hbefore, ← hplans.left t hlive, List.flatMap_append,
      List.append_assoc]
  · -- a handler has thrown, and a handler is told of no message itself
    have hnone : messagesOf t c (d.begins? t).toList = [] := by
      apply messagesOf_eq_nil
      intro e he
      cases d with
      | trigger name c' m =>
        rw [Duty.begins?, Option.toList_some, List.mem_singleton] at he
        subst he
        exact Or.inr (by simpa [Duty.side] using hside)
      | _ => cases he
    rw [hnone, left_of_agenda ((agenda_of_some hy).trans hya)]
    exact List.nil_prefix

end World

namespace Chronicle

/-- A turn adds duties to a thread that drain nothing, or it is a step of the thread. -/
theorem agenda_after (s : Chronicle) (turn : Turn) (t : Nat) :
    (∃ more, (s.after turn).world.agenda t = more ++ s.world.agenda t ∧ (∀ e ∈ more, e.session? = none) ∧
      ∀ e ∈ (s.begins? turn).toList, e.thread ≠ t) ∨
    ∃ x d rest, turn = .move (.step t) ∧ s.world.permits t = true ∧ s.world.Next t x d rest ∧
      (s.after turn).world = s.world.stepThread t := by
  have hsame : (s.after turn).world.agenda t = s.world.agenda t →
      (∀ e ∈ (s.begins? turn).toList, e.thread ≠ t) →
      ∃ more, (s.after turn).world.agenda t = more ++ s.world.agenda t ∧ (∀ e ∈ more, e.session? = none) ∧
        ∀ e ∈ (s.begins? turn).toList, e.thread ≠ t :=
    fun hagenda hbegins => ⟨[], hagenda, by simp, hbegins⟩
  by_cases hturn : ∃ u, turn = .move (.step u)
  · obtain ⟨u, rfl⟩ := hturn
    have hthread : ∀ e ∈ (s.begins? (.move (.step u))).toList, e.thread = u := by
      intro e he
      obtain ⟨rest, hstep, -⟩ := begins?_eq_some (Option.mem_toList.1 he)
      cases hstep
      rfl
    by_cases hgoes : s.world.permits u = true ∧ s.world.ready u = true
    · obtain ⟨x, d, rest, hx⟩ := World.agenda_of_ready hgoes.2
      have hworld := world_after_step hgoes.1 hgoes.2
      by_cases htu : t = u
      · subst htu
        exact Or.inr ⟨x, d, rest, rfl, hgoes.1, hx, hworld⟩
      · refine Or.inl (hsame ?_ ?_)
        · rw [hworld]
          exact hx.agenda_other htu
        · intro e he
          rw [hthread e he]
          exact Ne.symm htu
    · refine Or.inl (hsame ?_ ?_)
      · rw [world_of_waiting hgoes]
      · -- an event would not have to wait
        intro e he
        obtain ⟨rest, hstep, htrigger⟩ := begins?_eq_some (Option.mem_toList.1 he)
        cases hstep
        exact absurd (World.goes_of_trigger htrigger) hgoes
  · obtain ⟨hadds, -, -⟩ := s.adds_after fun u heq => hturn ⟨u, heq⟩
    have hbegins : ∀ e ∈ (s.begins? turn).toList, e.thread ≠ t := by
      intro e he
      obtain ⟨-, hstep, -⟩ := begins?_eq_some (Option.mem_toList.1 he)
      exact absurd ⟨_, hstep⟩ hturn
    rcases hadds t with hagenda | ⟨d, hagenda, -, hd, -⟩
    · exact Or.inl (hsame hagenda hbegins)
    · exact Or.inl ⟨[d], hagenda, by simpa using hd, hbegins⟩

/-- Nothing is added to what threads have left to tell of a session that no request finds. -/
theorem left_after (s : Chronicle) (turn : Turn) (t : Nat) (hlive : ∀ id, s.world.liveSession? id ≠ some c) :
    messagesOf t c (s.begins? turn).toList ++ (s.after turn).world.left t c <+: s.world.left t c := by
  rcases s.agenda_after turn t with ⟨more, hagenda, hmore, hbegins⟩ | ⟨x, d, rest, rfl, -, hx, hworld⟩
  · have hnone : more.flatMap (Duty.left c) = [] := by
      apply World.flatMap_left_eq_nil
      intro e he
      rw [hmore e he]
      nofun
    rw [messagesOf_eq_nil fun e he => Or.inl (hbegins e he), World.left_of_agenda hagenda,
      List.flatMap_append, hnone, List.nil_append, List.nil_append, World.left]
  · have hbegins : s.begins? (.move (.step t)) = d.begins? t := by
      rw [begins?, hx.agenda_eq]
      rfl
    rw [hbegins, hworld]
    exact World.left_step hx hlive

end Chronicle

/-! ## Sessions that are closed -/

namespace World

/-- The connection has been closed. -/
def closed (w : World) (c : Nat) : Bool := (w.conn? c).any fun y => !y.connected

variable {w v : World}

theorem closed_iff : w.closed c = true ↔ ∃ id closed, w.row? c = some (id, false, closed) := by
  cases hy : w.conn? c with
  | none =>
    have hrow : w.row? c = none := by rw [row?_eq_face, getElem?_faces, hy]; rfl
    simp [closed, hy, hrow]
  | some y => simp [closed, hy, row?_of_conn hy]

/-- A session that is closed is not found any more. -/
theorem Registered.not_live (h : w.Registered record) (hclosed : w.closed c = true) (id : String) :
    w.liveSession? id ≠ some c := by
  intro hlive
  have hlookup := lookup_of_liveSession? hlive
  rw [h.sessions, h.lookup] at hlookup
  obtain ⟨id', closed, hrow⟩ := closed_iff.1 hclosed
  cases hrow.symm.trans hlookup

/-- A connection that is closed stays so. -/
theorem Changes.closed {news : Option (Nat × String)} (h : w.Changes v news) (hclosed : w.closed c = true) :
    v.closed c = true := by
  rw [closed_iff] at hclosed ⊢
  obtain ⟨id, closed, hrow⟩ := hclosed
  cases h with
  | nothing hrows => exact ⟨id, closed, by rw [hrows, hrow]⟩
  | opens hrows =>
    refine ⟨id, closed, ?_⟩
    rw [hrows, if_neg, hrow]
    rintro rfl
    rw [row?_eq_none_iff.2 le_rfl] at hrow
    cases hrow
  | @closes c' id' _ _ hrows =>
    by_cases hc : c = c'
    · exact ⟨id', true, by rw [hrows, if_pos hc]⟩
    · exact ⟨id, closed, by rw [hrows, if_neg hc, hrow]⟩

/-- A connection is told to end if it is closed, and not otherwise. -/
theorem Registered.prefix_story (h : w.Registered record) (c : Nat) :
    entriesOf c record <+: story (!w.closed c) := by
  cases hrow : w.row? c with
  | none =>
    rw [h.unborn c hrow]
    exact List.nil_prefix
  | some row =>
    obtain ⟨id, connected, closed⟩ := row
    have hclosed : w.closed c = !connected := by
      cases connected with
      | false => exact closed_iff.2 ⟨id, closed, hrow⟩
      | true =>
        rw [Bool.not_true, Bool.eq_false_iff, ne_eq, closed_iff]
        rintro ⟨id', closed', hrow'⟩
        rw [hrow] at hrow'
        cases hrow'
    rw [h.told c id connected closed hrow, hclosed, Bool.not_not]

end World

namespace Chronicle

variable {settings : Settings} {limiter : Option Limiter} {ids : Ids}

theorem distinct_of_append (h : (run settings limiter ids (front ++ back)).world.Distinct) :
    (run settings limiter ids front).world.Distinct :=
  h.of_kept (idOf?_append front back)

/-- What is told of a session after its closing was left to tell when it was closed. -/
theorem messages_of_closed (hdistinct : (run settings limiter ids (front ++ back)).world.Distinct)
    (hclosed : (run settings limiter ids front).world.closed c = true) (t : Nat) :
    messagesOf t c ((run settings limiter ids front).trail back) <+:
      (run settings limiter ids front).world.left t c := by
  induction back generalizing front with
  | nil => exact List.nil_prefix
  | cons turn more ih =>
    obtain ⟨record, hrecords, hregistered⟩ := registered_run (distinct_of_append hdistinct)
    obtain ⟨news, hchanges, -⟩ := records_after hrecords turn
    have hleft := left_after (run settings limiter ids front) turn t (hregistered.not_live hclosed)
    have hmore := @ih (front ++ [turn]) (by rwa [List.append_assoc])
      (by rw [run_concat]; exact hchanges.closed hclosed)
    rw [run_concat] at hmore
    rw [trail, messagesOf_append]
    exact ((List.prefix_append_right_inj _).2 hmore).trans hleft

/-- A session that is drained has been told to begin. -/
theorem connect_of_session (hdistinct : (run settings limiter ids turns).world.Distinct)
    (hd : d ∈ (run settings limiter ids turns).world.agenda t) (hc : d.session? = some c) :
    (c, "connect") ∈ (run settings limiter ids turns).events := by
  induction turns using List.reverseRecOn generalizing t d with
  | nil =>
    cases hd
  | append_singleton front turn ih =>
    have hbefore := distinct_of_append hdistinct
    rw [run_concat] at hd ⊢
    set s := run settings limiter ids front with hs
    have hkept : (c, "connect") ∈ s.events → (c, "connect") ∈ (s.after turn).events := by
      intro hmem
      rw [← mem_entriesOf, entriesOf_events_after]
      exact List.mem_append_left _ (mem_entriesOf.2 hmem)
    apply hkept
    rcases s.agenda_after turn t with ⟨more, hagenda, hmore, -⟩ |
      ⟨x, e, rest, rfl, hpermits, hx, hworld⟩
    · rw [hagenda] at hd
      rcases List.mem_append.1 hd with hnew | hold
      · rw [hmore d hnew] at hc
        cases hc
      · exact ih hbefore hold hc
    · have hw : s.world.agenda t = e :: rest := hx.agenda_eq
      obtain ⟨y, hy, hgoes⟩ := hx.goes
      rw [hworld, World.agenda_of_some hy] at hd
      rcases hgoes.agenda with ⟨duties, hya, hplans⟩ | ⟨-, -, hya⟩
      · rw [hya] at hd
        rcases List.mem_append.1 hd with hnew | hold
        · rcases hplans.session hnew hc with hsame | ⟨r, id, rfl, hlive⟩
          · exact ih hbefore (by rw [hw]; exact List.mem_cons_self) hsame
          · -- a request is served when no event is due, and it finds the session in the tables
            obtain ⟨record, hrecords, hregistered⟩ := registered_run hbefore
            have hsettled := World.settled_of_exposed hw rfl hpermits
            have hlookup := World.lookup_of_liveSession? hlive
            rw [hregistered.sessions, hregistered.lookup] at hlookup
            have htold := hregistered.told c id true false hlookup
            rw [hrecords.eq_events hsettled] at htold
            rw [← mem_entriesOf, htold]
            exact List.mem_singleton.2 rfl
        · exact ih hbefore (by rw [hw]; exact List.mem_cons_of_mem _ hold) hc
      · rw [hya] at hd
        cases hd

variable (settings limiter ids) in
/-- No thread has messages of connection `c` left after the turn by which the connection is closed. -/
def EndsIdle (turns : List Turn) (c : Nat) : Prop :=
  ∀ n < turns.length, (run settings limiter ids (turns.take n)).world.closed c = false →
    let w := (run settings limiter ids (turns.take (n + 1))).world
    w.closed c = true → ∀ t < w.threads.length, w.left t c = []

instance (turns : List Turn) (c : Nat) : Decidable (EndsIdle settings limiter ids turns c) :=
  inferInstanceAs (Decidable (∀ n < turns.length, _ → _ → ∀ t < _, _))

theorem EndsIdle.of_concat (h : EndsIdle settings limiter ids (turns ++ [turn]) c) :
    EndsIdle settings limiter ids turns c := by
  intro n hn
  have hn' := h n (by rw [List.length_append]; omega)
  rwa [List.take_append_of_le_length hn.le, List.take_append_of_le_length hn] at hn'

/-- Nobody gets messages of a closed connection to tell of later. -/
theorem EndsIdle.left (h : EndsIdle settings limiter ids turns c)
    (hdistinct : (run settings limiter ids turns).world.Distinct)
    (hclosed : (run settings limiter ids turns).world.closed c = true) (t : Nat) :
    (run settings limiter ids turns).world.left t c = [] := by
  induction turns using List.reverseRecOn with
  | nil => cases hclosed
  | append_singleton front turn ih =>
    cases hfront : (run settings limiter ids front).world.closed c with
    | false =>
      have hturn := h front.length (by simp)
      have hlength : (front ++ [turn]).length ≤ front.length + 1 := by simp
      rw [List.take_left, List.take_of_length_le hlength] at hturn
      by_cases ht : t < (run settings limiter ids (front ++ [turn])).world.threads.length
      · exact hturn hfront hclosed t ht
      · rw [World.left_of_agenda (World.agenda_of_none (List.getElem?_eq_none (Nat.le_of_not_lt ht)))]
        rfl
    | true =>
      have hbefore := distinct_of_append hdistinct
      obtain ⟨record, -, hregistered⟩ := registered_run hbefore
      have hleft := left_after (run settings limiter ids front) turn t (hregistered.not_live hfront)
      rw [ih h.of_concat hbefore hfront, List.prefix_nil, List.append_eq_nil_iff] at hleft
      rw [run_concat]
      exact hleft.2

/-- So a session of which a message is told is not closed yet. -/
theorem EndsIdle.open_of_message {data : String} {rest : List Duty}
    (h : EndsIdle settings limiter ids turns c) (hdistinct : (run settings limiter ids turns).world.Distinct)
    (htrigger : (run settings limiter ids turns).world.agenda t = .trigger "message" c data :: rest) :
    (run settings limiter ids turns).world.closed c = false := by
  by_contra hclosed
  have hleft := h.left hdistinct (Bool.eq_true_of_not_eq_false hclosed) t
  rw [World.left_of_agenda htrigger] at hleft
  simp [Duty.left] at hleft

theorem events_prefix_story (hdistinct : (run settings limiter ids turns).world.Distinct) (c : Nat) :
    entriesOf c (run settings limiter ids turns).events <+:
      story (!(run settings limiter ids turns).world.closed c) := by
  obtain ⟨record, ⟨-, due, -, rfl⟩, hregistered⟩ := registered_run hdistinct
  have hstory := hregistered.prefix_story c
  rw [entriesOf_append] at hstory
  exact (List.prefix_append _ _).trans hstory

/-- The events of a session come in order, but for messages after the end, of which there are none if nobody
has any left when the session is closed. -/
theorem inOrder_run (hdistinct : (run settings limiter ids turns).world.Distinct) (c : Nat) :
    ∃ late, InOrder (entriesOf c (run settings limiter ids turns).events) late
        (namesOf c ((run settings limiter ids []).trail turns)) ∧
      (EndsIdle settings limiter ids turns c → late = 0) := by
  induction turns using List.reverseRecOn with
  | nil => exact ⟨0, .unborn, fun _ => rfl⟩
  | append_singleton front turn ih =>
    have hbefore := distinct_of_append hdistinct
    obtain ⟨late, horder, hlate⟩ := ih hbefore
    have hwithin := events_prefix_story hdistinct c
    have hstory := events_prefix_story hbefore c
    rw [trail_concat, namesOf_append]
    rw [run_concat, entriesOf_events_after] at hwithin ⊢
    cases hbegins : (run settings limiter ids front).begins? turn with
    | none =>
      refine ⟨late, ?_, fun hidle => hlate hidle.of_concat⟩
      simpa [namesOf] using horder
    | some e =>
      have hnames : namesOf c (some e).toList = if e.conn = c then [e.name] else [] := entriesOf_singleton c _
      rw [hbegins] at hwithin
      rw [hnames] at hwithin ⊢
      by_cases hc : e.conn = c
      · rw [if_pos hc] at hwithin ⊢
        by_cases hname : e.name = "message"
        · -- the thread drains the session, which has begun before
          obtain ⟨rest, -, htrigger⟩ := begins?_eq_some hbegins
          rw [hname, hc] at htrigger
          have hconnect := connect_of_session hbefore
            (by rw [htrigger]; exact List.mem_cons_self) (c := c) rfl
          rw [← mem_entriesOf] at hconnect
          obtain ⟨late', horder', hsame⟩ := horder.message (List.ne_nil_of_mem hconnect)
          refine ⟨late', by simpa [hname] using horder', fun hidle => ?_⟩
          rw [hidle.of_concat.open_of_message hbefore htrigger] at hstory
          rw [hsame, hlate hidle.of_concat]
          exact hstory.eq_of_length (le_antisymm hstory.length_le (List.length_pos_of_mem hconnect))
        · have hplain : [e.name].filter (· ≠ "message") = [e.name] := by simp [hname]
          rw [hplain] at hwithin ⊢
          have hwhole : ∀ connected, story connected <+: ["connect", "disconnect"] := by decide
          exact ⟨late, horder.boundary (hwithin.trans (hwhole _)), fun hidle => hlate hidle.of_concat⟩
      · rw [if_neg hc]
        refine ⟨late, ?_, fun hidle => hlate hidle.of_concat⟩
        simpa using horder

variable (settings limiter ids)

/-- The events of every session are its beginning, messages and its end, and messages may follow: those that
were left, when the session was closed, to drains that had found it before. A drain goes on telling of what it
has left, and of nothing else; if no drain has anything left when the session is closed, then no message comes
after the end.

Threads run in any order, handlers act and close what they like, and the only thing assumed of ids is that they
do not repeat. -/
theorem late_messages (turns : List Turn) (hdistinct : (run settings limiter ids turns).world.Distinct)
    (c : Nat) :
    let names := namesOf c ((run settings limiter ids []).trail turns)
    let plain := entriesOf c (run settings limiter ids turns).events
    (∃ late, InOrder plain late names) ∧ (EndsIdle settings limiter ids turns c → InOrder plain 0 names) ∧
    ∀ front back, turns = front ++ back → (run settings limiter ids front).world.closed c = true →
      ∀ t, messagesOf t c ((run settings limiter ids front).trail back) <+:
        (run settings limiter ids front).world.left t c := by
  intro names plain
  obtain ⟨late, horder, hlate⟩ := inOrder_run hdistinct c
  refine ⟨⟨late, horder⟩, ?_, ?_⟩
  · intro hidle
    rwa [hlate hidle] at horder
  · rintro front back rfl hclosed t
    exact messages_of_closed hdistinct hclosed t

/-- A drain of the first session. -/
def batch (messages : List String) : Request :=
  { method := "POST"
    header := ({} : Header).set sessionField (Ids.draw {}).1
    body := DrainRequest.body ⟨(Ids.draw {}).1, defaultProtocol, messages⟩ }

/-- The client drains a session, which a handler closes when it is told of a message. -/
def hungUp (messages : List String) : List Turn :=
  .move (.register "message" (.script 0 [.close])) :: .move (.request opening) :: steps 0 3 ++
    .move (.request (batch messages)) :: steps 1 19

/-- A handler closes a session while another drain waits for it. -/
def hungUpInLine : List Turn :=
  .move (.register "message" (.script 0 [.close])) :: .move (.request opening) :: steps 0 3 ++
    .move (.request (batch ["bye"])) :: steps 1 2 ++ .move (.request (batch ["x", "y"])) :: steps 2 1 ++ steps 1 5

/-- The drain goes on, and another one comes too late. -/
def afterwards : List Turn := steps 1 6 ++ .move (.request (batch ["z"])) :: steps 3 1 ++ steps 2 9

theorem late_messages_hungUp :
    let front := run {} none {} hungUpInLine
    let turns := hungUpInLine ++ afterwards
    ((run {} none {} turns).world.Distinct ∧ front.world.closed 0 = true ∧
      namesOf 0 ((run {} none {} []).trail turns) = ["connect", "message", "disconnect", "message", "message"] ∧
      messagesOf 2 0 (front.trail afterwards) <+: ["x", "y"] ∧ messagesOf 3 0 (front.trail afterwards) = []) ∧
    ((run {} none {} (hungUp ["bye"])).world.Distinct ∧ EndsIdle {} none {} (hungUp ["bye"]) 0 ∧
      InOrder ["connect", "disconnect"] 0 (namesOf 0 ((run {} none {} []).trail (hungUp ["bye"])))) := by
  have hline :
      let front := run {} none {} hungUpInLine
      let turns := hungUpInLine ++ afterwards
      (run {} none {} turns).world.Distinct ∧ front.world.closed 0 = true ∧
        namesOf 0 ((run {} none {} []).trail turns) = ["connect", "message", "disconnect", "message", "message"] ∧
        front.world.left 2 0 = ["x", "y"] ∧ front.world.left 3 0 = [] := by
    decide +kernel
  have hlast :
      (run {} none {} (hungUp ["bye"])).world.Distinct ∧ EndsIdle {} none {} (hungUp ["bye"]) 0 ∧
        entriesOf 0 (run {} none {} (hungUp ["bye"])).events = ["connect", "disconnect"] := by
    decide +kernel
  obtain ⟨hdistinct, hclosed, hnames, hleft, hnone⟩ := hline
  obtain ⟨hdistinct', hidle, hevents⟩ := hlast
  have hlate := (late_messages {} none {} _ hdistinct 0).2.2 hungUpInLine afterwards rfl hclosed
  have hwaiting := hlate 2
  have hrefused := hlate 3
  rw [hleft] at hwaiting
  rw [hnone, List.prefix_nil] at hrefused
  have horder := (late_messages {} none {} _ hdistinct' 0).2.1 hidle
  rw [hevents] at horder
  exact ⟨⟨hdistinct, hclosed, hnames, hwaiting, hrefused⟩, hdistinct', hidle, horder⟩

/-- A message comes after the end: the drain in which the session is closed goes on with the next one. -/
theorem message_after_disconnect :
    ¬ ∃ plain, InOrder plain 0 (namesOf 0 ((run {} none {} []).trail (hungUp ["a", "b"]))) := by
  have hnames : namesOf 0 ((run {} none {} []).trail (hungUp ["a", "b"])) =
      ["connect", "message", "disconnect", "message"] := by
    decide +kernel
  rintro ⟨plain, horder⟩
  generalize namesOf 0 ((run {} none {} []).trail (hungUp ["a", "b"])) = names at hnames horder
  cases horder with
  | unborn => cases hnames
  | online n =>
    have hend : "disconnect" ∈ "connect" :: List.replicate n "message" := by simp [hnames]
    simp at hend
  | ended n =>
    have hlast := congrArg List.getLast? hnames
    rw [List.replicate_zero, List.getLast?_concat] at hlast
    exact absurd (Option.some.inj hlast) (by decide)

end Chronicle

end PollSocket.Server
