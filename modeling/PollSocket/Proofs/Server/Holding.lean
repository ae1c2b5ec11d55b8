import PollSocket.Proofs.Server.Entries

set_option autoImplicit false

/-!
# Who holds a session

A drain takes hold of its session before it tells the handlers of anything, and it lets go of it when it
has answered or when a handler throws. In between the connection names its thread as the holder, whatever
handlers and other threads do (`World.Held`, `held_after`). So two drains of a session never tell or take
at the same time (`World.HeldBy.unique`). The other way round, the holder that a connection names is a
drain that is still to let go of it (`World.Gripped`, `gripped_after`).
-/

namespace PollSocket.Server

variable {answer : Answer} {unwritable : Bool} {d : Duty} {h : History} {taken : List (List String)}
  {takes : List (Nat × List String)} {told : List (Nat × String)} {agenda rest : List Duty}
  {begun : List Nat} {back : List String} {c n t u : Nat} {o : Option Request} {x : Thread} {w : World}

/-- The duty takes hold of a connection. -/
def Duty.isLock : Duty → Bool
  | .lock _ => true
  | _ => false

theorem Duty.isLock_of_side (h : d.side = true) : d.isLock = false := by
  cases d with
  | lock => cases h
  | _ => rfl

theorem Duty.grips_of_takesFrom? (h : d.takesFrom? = some c) : d.grips = false := by
  cases d with
  | take | wait | reply => rfl
  | _ => cases h

/-- The first duty of a thread. -/
def World.first? (w : World) (t : Nat) : Option Duty := w.threads[t]?.bind (·.agenda.head?)

/-- The next step of a thread tells the handlers of a message. -/
def World.tells (w : World) (t : Nat) : Bool := (w.first? t).any (·.tells?.isSome)

/-- The next step of a thread takes hold of a connection. -/
def World.locks (w : World) (t : Nat) : Bool := (w.first? t).any Duty.isLock

theorem World.Next.first (hx : w.Next t x d rest) :
    w.first? t = some d := by
  rw [first?, hx.thread, Option.bind_some, hx.agenda, List.head?_cons]

theorem World.agenda_of_tells (hx : w.threads[t]? = some x) (h : w.tells t = true) :
    ∃ c data rest, x.agenda = .trigger "message" c data :: rest := by
  cases hagenda : x.agenda with
  | nil => simp [tells, first?, hx, hagenda] at h
  | cons d rest =>
    rw [tells, Next.first ⟨hx, hagenda⟩, Option.any_some, Option.isSome_iff_exists] at h
    obtain ⟨⟨c, data⟩, htells⟩ := h
    exact ⟨c, data, rest, by rw [Duty.eq_of_tells? htells]⟩

/-- The thread has taken hold of connection `c` and is still to let go of it. -/
def Thread.Holds (x : Thread) (c : Nat) : Prop :=
  .unlock c ∈ x.agenda ∧ x.agenda.head? ≠ some (.lock c)

/-- Thread `t` is the holder of connection `c`. -/
def World.HeldBy (w : World) (c t : Nat) : Prop :=
  ∃ f, w.faces[c]? = some f ∧ f.holder = some t

/-- Connections are held by the threads that are still to let go of them. -/
def World.Held (w : World) : Prop :=
  ∀ (t : Nat) (x : Thread) (c : Nat), w.threads[t]? = some x → x.Holds c → w.HeldBy c t

theorem World.HeldBy.unique (ht : w.HeldBy c t) (hu : w.HeldBy c u) : t = u := by
  obtain ⟨f, hf, hft⟩ := ht
  obtain ⟨g, hg, hgu⟩ := hu
  cases hf.symm.trans hg
  exact Option.some.inj (hft.symm.trans hgu)

/-- Whatever the stage of a drain, what is left to do belongs to its session or to handlers. -/
theorem Drain.session (h : Drain c n unwritable back taken answer agenda) :
    ∀ e ∈ agenda, e.side = true ∨ e.session? = some c := by
  cases h with
  | delivering _ hside =>
    exact List.forall_mem_append.2 ⟨fun e he => Or.inl (hside e he), by simp [Duty.session?]⟩
  | _ => simp [Duty.session?]

/-- A thread that has a session left to drain is a drain that was admitted to it. -/
theorem Course.drain_of_session {e : Duty} (h : Course w o told takes begun x) (he : e ∈ x.agenda)
    (hc : e.session? = some c) :
    ∃ r q n front back taken, o = some r ∧ Admitted w r c q ∧ q.messages = front ++ back ∧
      told = front.map (Prod.mk c) ∧ takes = taken.map (Prod.mk c) ∧
      Drain c n x.unwritable back taken x.answer x.agenda := by
  have hside : e.side ≠ true := by
    intro hside
    rw [Duty.session?_of_side hside] at hc
    cases hc
  cases h with
  | aside hduties => exact absurd (hduties e he) hside
  | unserved ha =>
    rw [ha, List.mem_singleton] at he
    subst he
    cases hc
  | refused ha | greeted _ _ ha | interrupted _ _ ha =>
    rw [ha] at he
    cases he
  | greeting _ _ hduties ha =>
    rw [ha] at he
    rcases List.mem_append.1 he with hmem | hmem
    · exact absurd (hduties e hmem) hside
    · rw [List.mem_singleton] at hmem
      subst hmem
      cases hc
  | @draining r _ d n q front back taken hadmitted hmessages _ hdrain =>
    have hd := (hdrain.session e he).resolve_left hside
    obtain rfl : d = c := Option.some.inj (hd.symm.trans hc)
    exact ⟨r, q, n, front, back, taken, rfl, hadmitted, hmessages, rfl, rfl, hdrain⟩

/-- A drain that is to let go of its session has told of all its messages, has answered with what it has taken,
and has nothing else left to do. -/
theorem Drain.of_unlock (h : Drain c n unwritable back taken answer (.unlock c :: rest)) :
    rest = [] ∧ back = [] ∧ ∃ result, taken = result.toList ∧ Answered unwritable result answer := by
  generalize hagenda : Duty.unlock c :: rest = agenda at h
  cases h with
  | delivering _ hside => exact absurd hagenda.symm (side_append_ne hside rfl nofun)
  | unlocking hanswered =>
    cases hagenda
    exact ⟨rfl, rfl, _, rfl, hanswered⟩
  | _ => cases hagenda

/-- A drain that is to take hold of its session does everything else later. -/
theorem Drain.of_lock (h : Drain c n unwritable back taken answer (.lock c :: rest)) :
    rest = [.deliver c back, .take c n, .unlock c] := by
  generalize hagenda : Duty.lock c :: rest = agenda at h
  cases h with
  | delivering _ hside => exact absurd hagenda.symm (side_append_ne hside rfl nofun)
  | locking =>
    cases hagenda
    rfl
  | _ => cases hagenda

/-- A drain has taken once at most. -/
theorem Drain.taken_le (h : Drain c n unwritable back taken answer agenda) :
    ∃ result : Option (List String), taken = result.toList := by
  cases h with
  | replying result | @unlocking result | @done result => exact ⟨result, rfl⟩
  | _ => exact ⟨none, rfl⟩

/-- A drain that executes handlers has taken nothing yet. -/
theorem Drain.taken_of_side (h : Drain c n unwritable back taken answer (d :: rest)) (hd : d.side = true) :
    taken = [] := by
  generalize hagenda : d :: rest = agenda at h
  cases h with
  | replying | unlocking =>
    cases hagenda
    cases hd
  | done => cases hagenda
  | _ => rfl

theorem Course.drain (h : Course w o told takes begun x) (hagenda : x.agenda = d :: rest)
    (hc : d.session? = some c) : ∃ n back taken, Drain c n x.unwritable back taken x.answer (d :: rest) := by
  obtain ⟨r, q, n, front, back, taken, -, -, -, -, -, hdrain⟩ :=
    h.drain_of_session (hagenda ▸ List.mem_cons_self) hc
  exact ⟨n, back, taken, hagenda ▸ hdrain⟩

theorem Course.rest_of_unlock (h : Course w o told takes begun x) (hagenda : x.agenda = .unlock c :: rest) :
    rest = [] := by
  obtain ⟨n, back, taken, hdrain⟩ := h.drain hagenda rfl
  exact hdrain.of_unlock.1

namespace World

variable {v : World} {z : Thread}

/-- Whoever holds a connection after a step has held it before, or takes hold of it now. -/
theorem Does.holds (h : w.Does t x d rest z v) (hagenda : x.agenda = d :: rest) (hz : z.Holds c) :
    x.Holds c ∨ d = .lock c := by
  obtain ⟨hmem, hhead⟩ := hz
  -- what is left of the agenda was there before the step
  have hleft : d ≠ .lock c → .unlock c ∈ rest → x.Holds c := by
    intro hd hrest
    constructor
    · rw [hagenda]
      exact List.mem_cons_of_mem d hrest
    · rw [hagenda, List.head?_cons, ne_eq, Option.some.injEq]
      exact hd
  cases h with
  | plans hgrips hleads ha =>
    have hd : d ≠ .lock c := by
      rintro rfl
      cases hgrips
    rw [ha] at hmem hhead
    rcases List.mem_append.1 hmem with hnew | hold
    · -- a plan that lets go begins with taking hold
      have hfirst := hleads.held c hnew
      rw [List.head?_append, hfirst] at hhead
      exact absurd rfl hhead
    · exact Or.inl (hleft hd hold)
  | opens hd ha | closes hd _ _ ha =>
    rw [ha] at hmem
    exact Or.inl (hleft (by rw [hd]; nofun) (by simpa using hmem))
  | @locks c' hd ha =>
    rw [ha] at hmem
    by_cases hc : c' = c
    · exact Or.inr (hc ▸ hd)
    · refine Or.inl (hleft ?_ hmem)
      rw [hd]
      rintro ⟨⟩
      exact hc rfl
  | unlocks hd ha =>
    rw [ha] at hmem
    exact Or.inl (hleft (by rw [hd]; nofun) hmem)
  | throws _ ha =>
    rw [ha] at hmem
    cases hmem

/-- A holder stays one, unless the step takes hold of the connection, lets go of it or ends the
holder. -/
theorem Does.heldBy (h : w.Does t x d rest z v) (hkept : w.HeldBy c u) (hlock : d ≠ .lock c)
    (hunlock : d ≠ .unlock c) (hthrow : u = t → z.agenda ≠ []) : v.HeldBy c u := by
  obtain ⟨f, hf, hu⟩ := hkept
  have halters := h.alters c
  rw [hf] at halters
  rw [HeldBy]
  generalize v.faces[c]? = g at halters ⊢
  cases halters with
  | same => exact ⟨f, rfl, hu⟩
  | closed => exact ⟨f.shut, rfl, hu⟩
  | locked hd => exact absurd hd hlock
  | unlocked hd => exact absurd hd hunlock
  | released hagenda =>
    have hne : t ≠ u := fun heq => hthrow heq.symm hagenda
    refine ⟨f, ?_, hu⟩
    rw [Face.release, hu, if_neg fun heq => hne (Option.some.inj heq).symm]

/-- Whoever holds a connection after a step has held it before, or has taken hold of it now. -/
theorem Does.heldBy_before (h : w.Does t x d rest z v) (hu : v.HeldBy c u) :
    w.HeldBy c u ∨ u = t ∧ d = .lock c := by
  obtain ⟨g, hg, hgu⟩ := hu
  have halters := h.alters c
  rw [hg] at halters
  rw [HeldBy]
  generalize w.faces[c]? = f at halters ⊢
  cases halters with
  | same => exact Or.inl ⟨g, rfl, hgu⟩
  | opened => cases hgu
  | closed => exact Or.inl ⟨_, rfl, hgu⟩
  | locked hd => exact Or.inr ⟨(Option.some.inj hgu).symm, hd⟩
  | unlocked => cases hgu
  | released =>
    refine Or.inl ⟨_, rfl, ?_⟩
    rw [Face.release] at hgu
    split at hgu
    · cases hgu
    · exact hgu

/-- A step lets go of a connection by its thread being done with it. -/
theorem Does.agenda_of_unlock (h : w.Does t x (.unlock c) rest z v) : z.agenda = rest := by
  cases h with
  | plans hgrips => cases hgrips
  | unlocks _ ha => exact ha
  | opens hd | closes hd | locks hd | throws hd => cases hd

/-- A step takes hold of a connection that exists. -/
theorem Does.heldBy_of_lock (h : w.Does t x (.lock c) rest z v) {id : String} (hid : w.idOf? c = some id) :
    v.HeldBy c t := by
  rw [idOf?_eq_face, Option.map_eq_some_iff] at hid
  obtain ⟨f, hf, -⟩ := hid
  cases h with
  | plans hgrips => cases hgrips
  | locks hd _ _ hfaces =>
    cases hd
    refine ⟨{ f with holder := some t }, ?_, rfl⟩
    rw [hfaces, List.getElem?_modify_eq, hf]
    rfl
  | opens hd | closes hd | unlocks hd | throws hd => cases hd

/-- A connection that can be taken hold of has no holder. -/
theorem not_heldBy_of_ready (hready : w.ready t = true) (hx : w.Next t x (.lock c) rest) : ¬ w.HeldBy c u := by
  rintro ⟨f, hf, hu⟩
  rw [getElem?_faces, Option.map_eq_some_iff] at hf
  obtain ⟨y, hy, rfl⟩ := hf
  have hfree : y.holder.isNone = true := by simpa [ready, hx.thread, hx.agenda, hy] using hready
  rw [show y.holder = some u from hu] at hfree
  cases hfree

end World

/-- The session that a drain is to take hold of exists. -/
theorem Course.session_of_lock (h : Course w o told takes begun x) (hagenda : x.agenda = .lock c :: rest) :
    ∃ id, w.idOf? c = some id := by
  obtain ⟨r, q, n, front, back, taken, -, hadmitted, -⟩ :=
    h.drain_of_session (hagenda ▸ List.mem_cons_self) rfl
  exact ⟨_, hadmitted.session⟩

/-- A drain holds the session that it was admitted to. -/
theorem Course.of_holds {r : Request} (h : Course w (some r) told takes begun x) (hx : x.Holds c) :
    ∃ q, Admitted w r c q := by
  obtain ⟨r', q, n, front, back, taken, hr, hadmitted, -⟩ := h.drain_of_session hx.1 rfl
  cases hr
  exact ⟨q, hadmitted⟩

/-- A drain that tells the handlers of a message, or takes, holds its session. -/
theorem Course.holds_of_session (h : Course w o told takes begun x) (hagenda : x.agenda = d :: rest)
    (hc : d.session? = some c) (hd : d.grips = false) : x.Holds c := by
  obtain ⟨n, back, taken, hdrain⟩ := h.drain hagenda hc
  rw [Thread.Holds, hagenda]
  constructor
  · generalize hlist : d :: rest = agenda at hdrain ⊢
    generalize x.answer = answer at hdrain
    cases hdrain with
    | done => cases hlist
    | _ => simp
  · rintro ⟨⟩
    cases hd

/-- Whoever holds a connection after a move has held it before, or the move is the step by which the
thread takes hold of it. -/
theorem holds_after (h : History) (m : Move) {z : Thread} (hz : (h.after m).world.threads[t]? = some z)
    (hzc : z.Holds c) :
    ∃ x, h.world.threads[t]? = some x ∧ (x.Holds c ∨
      m = .step t ∧ h.world.ready t = true ∧ ∃ rest, x.agenda = .lock c :: rest) := by
  have hturns := h.turns_after m
  cases hturns with
  | still hthreads =>
    rw [hthreads] at hz
    exact ⟨z, hz, Or.inl hzc⟩
  | @steps u x d rest _ hready hx hv =>
    rw [hv] at hz
    by_cases htu : t = u
    · subst htu
      obtain ⟨z', hz', -, hdoes⟩ := hx.steps
      cases hz'.symm.trans hz
      refine ⟨x, hx.thread, (hdoes.holds hx.agenda hzc).imp_right ?_⟩
      rintro rfl
      exact ⟨rfl, hready, rest, hx.agenda⟩
    · rw [hx.effect.others t htu] at hz
      exact ⟨z, hz, Or.inl hzc⟩
  | @spawns _ d _ hd hthreads =>
    rw [hthreads, List.getElem?_append] at hz
    split at hz
    · exact ⟨z, hz, Or.inl hzc⟩
    · -- no thread starts with letting go
      obtain rfl := List.mem_singleton.1 (List.mem_of_getElem? hz)
      have hunlock := List.mem_singleton.1 hzc.1
      rw [← hunlock] at hd
      cases m <;> cases hd
  | @acts u number c' data a a' x rest _ hx hv =>
    rw [hv, World.push, World.threads_updateThread] at hz
    split at hz
    next htu =>
      rw [htu, hx.thread, Option.map_some, Option.some.injEq] at hz
      subst hz
      refine ⟨x, htu ▸ hx.thread, Or.inl ⟨by simpa using hzc.1, ?_⟩⟩
      rw [hx.agenda]
      simp
    next => exact ⟨z, hz, Or.inl hzc⟩
  | cancels hv | severs hv | prefers hv =>
    rw [hv, World.threads_updateThread] at hz
    split at hz
    · obtain ⟨x, hx, rfl⟩ := Option.map_eq_some_iff.1 hz
      exact ⟨x, hx, Or.inl hzc⟩
    · exact ⟨z, hz, Or.inl hzc⟩

/-- A holder stays one, unless it comes to its end. -/
theorem heldBy_after (hs : Sound h.toBooks h.world) (hheld : h.world.Held) (m : Move)
    (ht : h.world.HeldBy c t) : (h.after m).world.HeldBy c t ∨
      ∃ z, (h.after m).world.threads[t]? = some z ∧ z.agenda = [] := by
  obtain hsteady | ⟨u, x, d, rest, z, -, hready, hx, hz, hdoes⟩ := (h.turns_after m).steady_or_does
  · obtain ⟨f, hf, hft⟩ := ht
    exact Or.inl ⟨f, by rw [hsteady.faces, hf], hft⟩
  · by_cases hunlock : d = .unlock c
    · -- whoever lets go of the connection holds it
      subst hunlock
      have hxc : x.Holds c := by
        rw [Thread.Holds, hx.agenda]
        exact ⟨List.mem_cons_self, by simp⟩
      obtain rfl := ht.unique (hheld u x c hx.thread hxc)
      obtain ⟨o, -, hcourse⟩ := hs.courses t x hx.thread
      exact Or.inr ⟨z, hz, by rw [hdoes.agenda_of_unlock, hcourse.rest_of_unlock hx.agenda]⟩
    · by_cases hend : t = u ∧ z.agenda = []
      · obtain ⟨rfl, hnil⟩ := hend
        exact Or.inr ⟨z, hz, hnil⟩
      · refine Or.inl (hdoes.heldBy ht ?_ hunlock fun htu hnil => hend ⟨htu, hnil⟩)
        rintro rfl
        exact World.not_heldBy_of_ready hready hx ht

/-- Every move keeps the holders. -/
theorem held_after (hs : Sound h.toBooks h.world) (hheld : h.world.Held) (m : Move) :
    (h.after m).world.Held := by
  intro t z c hz hzc
  obtain ⟨x, hx, hxc | ⟨rfl, hready, rest, hlock⟩⟩ := holds_after h m hz hzc
  · rcases heldBy_after hs hheld m (hheld t x c hx hxc) with hkept | ⟨z', hz', hnil⟩
    · exact hkept
    · cases hz'.symm.trans hz
      have hleft := hzc.1
      rw [hnil] at hleft
      cases hleft
  · -- the thread takes hold of the connection now
    obtain ⟨o, -, hcourse⟩ := hs.courses t x hx
    obtain ⟨id, hid⟩ := hcourse.session_of_lock hlock
    obtain ⟨z', -, -, hdoes⟩ := World.Next.steps ⟨hx, hlock⟩
    rw [History.world_after_step hready]
    exact hdoes.heldBy_of_lock hid

theorem held_new (settings : Settings) (limiter : Option Limiter) (ids : Ids) :
    (History.new settings limiter ids).world.Held := by
  intro t x c hx
  cases hx

/-! ## Holders that are still to let go -/

/-- Connections are held only by threads that are still to let go of them. -/
def World.Gripped (w : World) : Prop :=
  ∀ (c t : Nat), w.HeldBy c t → ∃ x, w.threads[t]? = some x ∧ x.Holds c

/-- A drain serves no request any more, and takes hold of its session first or not at all. -/
theorem Drain.of_cons (h : Drain c n unwritable back taken answer (d :: rest)) :
    (∀ r, d ≠ .serve r) ∧ ∀ e ∈ rest, e.isLock = false := by
  generalize hagenda : d :: rest = agenda at h
  cases h with
  | @delivering _ duties hside =>
    cases duties with
    | nil =>
      cases hagenda
      exact ⟨nofun, by simp [Duty.isLock]⟩
    | cons e more =>
      cases hagenda
      constructor
      · rintro r rfl
        cases hside _ List.mem_cons_self
      · intro f hf
        rcases List.mem_append.1 hf with hf | hf
        · exact Duty.isLock_of_side (hside f (List.mem_cons_of_mem _ hf))
        · simp only [List.mem_cons, List.not_mem_nil, or_false] at hf
          rcases hf with rfl | rfl | rfl <;> rfl
  | done => cases hagenda
  | _ =>
    cases hagenda
    exact ⟨nofun, by simp [Duty.isLock]⟩

namespace World

variable {v : World} {z : Thread}

/-- A step of the holder that does not let go leaves it the holder. -/
theorem Does.holds_after (h : w.Does t x d rest z v) (hgoes : x.Goes w z d rest)
    (hagenda : x.agenda = d :: rest)
    (hdrain : Drain c n x.unwritable back taken x.answer x.agenda) (hxc : x.Holds c) (hv : v.HeldBy c t) :
    z.Holds c := by
  obtain ⟨f, hf, hft⟩ := hv
  rw [hagenda] at hdrain
  obtain ⟨hserve, hlocks⟩ := hdrain.of_cons
  have hrest : .unlock c ∈ rest := by
    have hmem := hxc.1
    rw [hagenda] at hmem
    rcases List.mem_cons.1 hmem with rfl | hmem
    · -- whoever lets go is no holder after that
      cases h with
      | plans hgrips => cases hgrips
      | @unlocks c' hd _ _ hfaces =>
        cases hd
        rw [hfaces, List.getElem?_modify_eq] at hf
        obtain ⟨f', -, rfl⟩ := Option.map_eq_some_iff.1 hf
        cases hft
      | opens hd | closes hd | locks hd | throws hd => cases hd
    · exact hmem
  rcases hgoes.agenda with ⟨duties, hz, hplans⟩ | ⟨-, -, hz⟩
  · rw [Thread.Holds, hz]
    refine ⟨List.mem_append_right _ hrest, ?_⟩
    intro hhead
    cases duties with
    | nil =>
      cases hlocks _ (List.mem_of_mem_head? hhead)
    | cons e more =>
      rw [List.cons_append, List.head?_cons, Option.some.injEq] at hhead
      subst hhead
      cases hplans with
      | aside _ hduties => cases (hduties _ List.mem_cons_self).1
      | takes _ he => cases he
      | admits => exact hserve _ rfl
  · -- a thread that was thrown out of holds nothing
    cases h with
    | throws _ _ _ hfaces =>
      rw [hfaces, List.getElem?_map, Option.map_eq_some_iff] at hf
      obtain ⟨f', -, rfl⟩ := hf
      rw [Face.release] at hft
      split at hft
      · cases hft
      next hne => exact absurd hft hne
    | plans _ _ ha =>
      rw [ha, List.append_eq_nil_iff] at hz
      rw [hz.2] at hrest
      cases hrest
    | opens _ ha | closes _ _ _ ha =>
      cases ha.symm.trans hz
    | locks _ ha | unlocks _ ha =>
      rw [← ha, hz] at hrest
      cases hrest

end World

/-- Every move keeps this. -/
theorem gripped_after (hs : Sound h.toBooks h.world) (hgripped : h.world.Gripped) (m : Move) :
    (h.after m).world.Gripped := by
  intro c t ht
  have hturns := h.turns_after m
  generalize (h.after m).world = v at hturns ht ⊢
  -- without a step the connections stay as they are
  have hstill : h.world.Steady v → ∃ x, h.world.threads[t]? = some x ∧ x.Holds c := by
    intro hsteady
    obtain ⟨f, hf, hft⟩ := ht
    exact hgripped c t ⟨f, by rw [← hsteady.faces, hf], hft⟩
  cases hturns with
  | still hthreads hsteady =>
    rw [hthreads]
    exact hstill hsteady
  | @steps u x d rest _ _ hx hv =>
    subst hv
    obtain ⟨z, hz, -, hdoes⟩ := hx.steps
    rcases hdoes.heldBy_before ht with hbefore | ⟨rfl, rfl⟩
    · obtain ⟨y, hy, hyc⟩ := hgripped c t hbefore
      by_cases htu : t = u
      · subst htu
        cases hy.symm.trans hx.thread
        obtain ⟨o, -, hcourse⟩ := hs.courses t x hy
        obtain ⟨r, q, n, front, back, taken, -, -, -, -, -, hdrain⟩ := hcourse.drain_of_session hyc.1 rfl
        obtain ⟨z', hz', hgoes⟩ := hx.goes
        cases hz'.symm.trans hz
        exact ⟨z, hz, hdoes.holds_after hgoes hx.agenda hdrain hyc ht⟩
      · exact ⟨y, by rw [hx.effect.others t htu, hy], hyc⟩
    · -- the thread has taken hold of the connection now
      obtain ⟨o, -, hcourse⟩ := hs.courses t x hx.thread
      obtain ⟨n, back, taken, hdrain⟩ := hcourse.drain hx.agenda rfl
      have hrest := hdrain.of_lock
      refine ⟨z, hz, ?_⟩
      cases hdoes with
      | plans hgrips => cases hgrips
      | locks _ ha =>
        rw [Thread.Holds, ha, hrest]
        simp
      | opens hd | closes hd | unlocks hd | throws hd => cases hd
  | spawns _ hthreads hsteady =>
    obtain ⟨x, hx, hxc⟩ := hstill hsteady
    refine ⟨x, ?_, hxc⟩
    rw [hthreads, List.getElem?_append_left (List.getElem?_eq_some_iff.1 hx).1, hx]
  | acts _ hv =>
    subst hv
    obtain ⟨x, hx, hxc⟩ := hstill (.updateThread _ _ _)
    rw [World.push, World.threads_updateThread]
    split
    · refine ⟨_, by rw [hx]; rfl, ?_⟩
      exact ⟨List.mem_append_right _ hxc.1, by simp⟩
    · exact ⟨x, hx, hxc⟩
  | cancels hv | severs hv | prefers hv =>
    subst hv
    obtain ⟨x, hx, hxc⟩ := hstill (.updateThread _ _ _)
    rw [World.threads_updateThread]
    split
    · exact ⟨_, Option.map_eq_some_iff.2 ⟨x, hx, rfl⟩, hxc⟩
    · exact ⟨x, hx, hxc⟩

end PollSocket.Server
