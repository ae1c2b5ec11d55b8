import PollSocket.Proofs.Server.Expiry

set_option autoImplicit false

/-!
# Sessions that have lapsed do not come back

A session that is closed, or was without a drain for too long, is refused to every further drain. Only a drain
that was admitted before could still bring it back to life. Where there is none, the session has faded
(`World.Faded`), and every move leaves it so (`History.fades_after`): whatever the clock, sweeps, handlers and other
clients do, nobody is admitted to it, its handlers are told of no message, and the time of its last drain stays.
-/

namespace PollSocket.Server

variable {c t : Nat} {r : Request} {id : String} {w : World}

/-- The request is a drain of the session with an id, whatever its body is. -/
def Request.names (r : Request) (id : String) : Bool :=
  !asksUpgrade r.header && r.method == "POST" && r.header.get sessionField == id

/-- The thread has answered that there is no such session. -/
structure Thread.NotFound (x : Thread) : Prop where
  agenda : x.agenda = []
  status : x.answer.status = 404
  body : x.answer.body = Text.encode "session not found\n" ∨ x.unwritable = true ∧ x.answer.body = []

theorem Thread.NotFound.stays {x y : Thread} (h : x.NotFound) (hstays : x.Stays y) : y.NotFound where
  agenda := by
    rcases hstays.agenda with hsame | ⟨hbusy, -⟩
    · exact hsame.trans h.agenda
    · exact absurd h.agenda hbusy
  status := by rw [hstays.answer, h.status]
  body := by
    rw [hstays.answer]
    exact h.body.imp_right fun hlost => ⟨hstays.unwritable hlost.1, hlost.2⟩

/-- A thread that is to serve a request has nothing else to do, and has done nothing before. -/
theorem Course.of_serve {o : Option Request} {told : List (Nat × String)} {takes : List (Nat × List String)}
    {begun : List Nat} {x : Thread} (h : Course w o told takes begun x) (hmem : .serve r ∈ x.agenda) :
    o = some r ∧ told = [] ∧ x.agenda = [.serve r] ∧ x.answer = {} := by
  have hnone : x.agenda ≠ [] := List.ne_nil_of_mem hmem
  cases h with
  | aside hside => cases hside _ hmem
  | unserved ha hanswer =>
    rw [ha, List.mem_singleton, Duty.serve.injEq] at hmem
    exact ⟨by rw [hmem], rfl, by rw [ha, hmem], hanswer⟩
  | refused ha | greeted _ _ ha | interrupted _ _ ha => exact absurd ha hnone
  | greeting _ _ hside ha =>
    rw [ha, List.mem_append, List.mem_singleton] at hmem
    rcases hmem with hmem | hmem
    · cases hside _ hmem
    · cases hmem
  | draining _ _ _ hdrain =>
    generalize x.agenda = agenda at hmem hdrain
    generalize x.answer = answer at hdrain
    cases hdrain with
    | delivering _ hside =>
      rcases List.mem_append.1 hmem with hmem | hmem
      · cases hside _ hmem
      · simp at hmem
    | _ => simp at hmem

namespace World

/-- A drain of a connection is in progress: it was admitted, and has not let go yet. -/
def busy (w : World) (c : Nat) : Bool :=
  (List.range w.threads.length).any fun t => (w.agenda t).any fun d => d.session? == some c

theorem busy_eq_false_iff : w.busy c = false ↔ ∀ t, ∀ d ∈ w.agenda t, d.session? ≠ some c := by
  simp only [busy, List.any_eq_false, List.mem_range, beq_iff_eq, Bool.not_eq_true]
  constructor
  · intro h t d hd
    by_cases ht : t < w.threads.length
    · exact h t ht d hd
    · rw [agenda_of_none (List.getElem?_eq_none (Nat.not_lt.1 ht))] at hd
      cases hd
  · exact fun h t _ d hd => h t d hd

/-- The session of connection `c` has lapsed, and no drain of it is in progress. -/
structure Faded (w : World) (c : Nat) : Prop where
  lapsed : w.lapsed c = true
  undrained : ∀ t, ∀ d ∈ w.agenda t, d.session? ≠ some c

theorem Faded.iff : w.Faded c ↔ w.lapsed c = true ∧ w.busy c = false := by
  rw [busy_eq_false_iff]
  exact ⟨fun h => ⟨h.lapsed, h.undrained⟩, fun h => ⟨h.1, h.2⟩⟩

variable {x : Thread} {d : Duty} {rest : List Duty}

/-- What drains a session after a step drained it before, or its session was found alive. -/
theorem session_before (hx : w.Next t x d rest) {u : Nat} {e : Duty}
    (he : e ∈ (w.stepThread t).agenda u) (hc : e.session? = some c) :
    (∃ v, ∃ e' ∈ w.agenda v, e'.session? = some c) ∨ w.lapsed c = false := by
  by_cases hut : u = t
  · subst hut
    obtain ⟨z, hz, hgoes⟩ := hx.goes
    rw [agenda_of_some hz] at he
    rcases hgoes.agenda with ⟨duties, hlist, hplans⟩ | ⟨-, -, hlist⟩
    · rw [hlist] at he
      rcases List.mem_append.1 he with hnew | hold
      · rcases hplans.session hnew hc with hsame | ⟨r, id, -, hlive⟩
        · exact Or.inl ⟨u, d, hx.mem, hsame⟩
        · exact Or.inr (not_lapsed_of_liveSession? hlive)
      · exact Or.inl ⟨u, e, hx.mem_rest hold, hc⟩
    · rw [hlist] at he
      cases he
  · rw [hx.agenda_other hut] at he
    exact Or.inl ⟨u, e, he, hc⟩

namespace Faded

theorem step (h : w.Faded c) (hx : w.Next t x d rest) : (w.stepThread t).Faded c := by
  obtain ⟨z, -, -, hdoes⟩ := hx.steps
  constructor
  · apply lapsed_after hdoes hx.beats h.lapsed
    intro htakes
    exact h.undrained t d hx.mem (Duty.session?_of_takesFrom? htakes)
  · intro u e he hc
    rcases session_before hx he hc with ⟨v, e', he', hc'⟩ | hlive
    · exact h.undrained v e' he' hc'
    · rw [h.lapsed] at hlive
      cases hlive

/-- A step leaves the pulse of a session that has faded as it is. -/
theorem pulse_step (h : w.Faded c) (hx : w.Next t x d rest) :
    (w.stepThread t).pulses[c]? = w.pulses[c]? := by
  cases hx.beats.feels c with
  | keeps hkeeps => exact hkeeps
  | drained htakes => exact absurd (Duty.session?_of_takesFrom? htakes) (h.undrained t d hx.mem)
  | begins hnone =>
    have hlapsed := h.lapsed
    rw [getElem?_pulses, Option.map_eq_none_iff] at hnone
    rw [World.lapsed, hnone] at hlapsed
    cases hlapsed

/-- A session that has faded is not found, unless another connection has its id. -/
theorem liveSession? (h : w.Faded c) (htabled : w.Tabled) (hunique : ∀ d, w.idOf? d = some id → d = c) :
    w.liveSession? id = none := by
  cases hlive : w.liveSession? id with
  | none => rfl
  | some d =>
    obtain rfl := hunique d (htabled.sessions id d (lookup_of_liveSession? hlive))
    have hlapsed := not_lapsed_of_liveSession? hlive
    rw [h.lapsed] at hlapsed
    cases hlapsed

end Faded

/-- A drain of a session that is not found is refused. -/
theorem notFound_of_serve (hx : w.Next t x (.serve r) []) (hnames : r.names id = true)
    (hid : id ≠ "" ∧ id ≠ nullSession) (hlive : w.liveSession? id = none) :
    ∃ y, (w.stepThread t).threads[t]? = some y ∧ y.NotFound := by
  simp only [Request.names, Bool.and_eq_true, Bool.not_eq_true', beq_iff_eq] at hnames
  obtain ⟨⟨hupgrade, hmethod⟩, hsession⟩ := hnames
  have hlive' : (w.pop t []).liveSession? id = none := hlive
  have hstep : w.stepThread t = (w.pop t []).refuse t 404 {} "session not found" := by
    rw [hx.step_eq]
    simp only [discharge, serve, hupgrade, hmethod, hsession, drain, hlive', Bool.false_eq_true, bne_self_eq_false,
      if_false, Bool.or_eq_true, String.isEmpty_iff, beq_iff_eq, hid.1, hid.2, or_self]
  refine ⟨_, by rw [hstep]; exact threads_respond (threads_pop hx.thread []) 404 _ _, rfl, rfl, ?_⟩
  show (if x.unwritable = true then [] else _) = _ ∨
    x.unwritable = true ∧ (if x.unwritable = true then [] else _) = _
  split
  next hunwritable => exact Or.inr ⟨hunwritable, rfl⟩
  next => exact Or.inl rfl

end World

namespace History

variable {h : History}

/-- What a move does to a session that has faded: it stays so, with the pulse and the messages it had. -/
structure Fades (h k : History) (c : Nat) : Prop where
  faded : k.world.Faded c
  pulse : k.world.pulses[c]? = h.world.pulses[c]?
  told : k.toldFor c = h.toldFor c

theorem toldFor_of_faded (hf : h.world.Faded c) (m : Move) : (h.after m).toldFor c = h.toldFor c := by
  rcases h.told_after m with hsame | ⟨t, c', data, x, rest, -, hx, htold⟩
  · rw [Books.toldFor, hsame, Books.toldFor]
  · have hne : c' ≠ c := by
      rintro rfl
      exact hf.undrained t _ hx.mem rfl
    rw [Books.toldFor, htold, List.map_append, entriesOf_append, List.map_singleton, entriesOf_singleton, if_neg hne,
      List.append_nil, Books.toldFor]

/-- Every move leaves a session that has faded so. -/
theorem fades_after (hf : h.world.Faded c) (m : Move) : h.Fades (h.after m) c := by
  have htold := toldFor_of_faded hf m
  by_cases hstep : ∃ t, m = .step t
  · obtain ⟨t, rfl⟩ := hstep
    cases hready : h.world.ready t with
    | true =>
      obtain ⟨x, d, rest, hx⟩ := World.agenda_of_ready hready
      have hworld := world_after_step hready
      exact ⟨hworld ▸ hf.step hx, hworld ▸ hf.pulse_step hx, htold⟩
    | false =>
      have hsame : h.after (.step t) = h := by rw [after, if_neg (by simp [hready])]
      rw [hsame]
      exact ⟨hf, rfl, rfl⟩
  · have hnostep : ∀ t, m ≠ .step t := fun t heq => hstep ⟨t, heq⟩
    -- such a move adds duties that drain nothing, at most
    have hundrained : ∀ t, ∀ d ∈ (h.after m).world.agenda t, d.session? ≠ some c := by
      intro t d hd
      rcases (h.turns_after m).adds hnostep t with hsame | ⟨e, hmore, -, he, -⟩
      · rw [hsame] at hd
        exact hf.undrained t d hd
      · rw [hmore] at hd
        rcases List.mem_cons.1 hd with rfl | hd
        · rw [he]
          rintro ⟨⟩
        · exact hf.undrained t d hd
    by_cases hclock : ∃ now, m = .clock now
    · obtain ⟨now, rfl⟩ := hclock
      refine ⟨⟨?_, hundrained⟩, rfl, htold⟩
      have hlapsed := hf.lapsed
      rw [World.lapsed_eq] at hlapsed ⊢
      exact World.lapsed_mono (le_max_left _ _) hlapsed
    · have hstill := Watch.still_enter { toHistory := h } hnostep fun now heq => hclock ⟨now, heq⟩
      have hconns : (h.after m).world.conns = h.world.conns := hstill.1
      have hnow : (h.after m).world.now = h.world.now := hstill.2.1
      refine ⟨⟨?_, hundrained⟩, by rw [World.pulses, hconns, World.pulses], htold⟩
      have hlapsed := hf.lapsed
      rwa [World.lapsed, World.conn?, ← hconns, ← hnow] at hlapsed

theorem fades_foldl (hf : h.world.Faded c) (moves : List Move) : h.Fades (moves.foldl after h) c := by
  induction moves using List.reverseRecOn with
  | nil => exact ⟨hf, rfl, rfl⟩
  | append_singleton more m ih =>
    rw [List.foldl_concat]
    have hnext := fades_after ih.faded m
    exact ⟨hnext.faded, hnext.pulse.trans ih.pulse, hnext.told.trans ih.told⟩

/-- Thread `t` is still to serve request `r`, or has answered that there is no such session. -/
def Shunned (h : History) (t : Nat) (r : Request) : Prop :=
  ∃ x, h.world.threads[t]? = some x ∧ (x.agenda = [.serve r] ∨ x.NotFound)

/-- A drain of a session that has faded is refused, whenever it is served. -/
theorem Shunned.after (ht : h.Shunned t r) (hs : Sound h.toBooks h.world) (hf : h.world.Faded c)
    (hid : h.world.idOf? c = some id) (hunique : ∀ d, h.world.idOf? d = some id → d = c)
    (hnames : r.names id = true) (m : Move) : (h.after m).Shunned t r := by
  obtain ⟨x, hx, hstate⟩ := ht
  rcases hstate with hagenda | hnotFound
  · rcases h.thread_after hx m with ⟨y, hy, hstays⟩ | ⟨d, rest, -, hworld⟩
    · refine ⟨y, hy, Or.inl ?_⟩
      rcases hstays.agenda with hsame | ⟨-, d, -, hmore⟩
      · exact hsame.trans hagenda
      · obtain ⟨o, -, hcourse⟩ := (hs.after m).courses t y hy
        refine (hcourse.of_serve ?_).2.2.1
        rw [hmore, hagenda]
        exact List.mem_cons_of_mem d (List.mem_singleton_self _)
    · obtain ⟨y, hy, hnotFound⟩ := World.notFound_of_serve ⟨hx, hagenda⟩ hnames (hs.tabled.named c id hid)
        (hf.liveSession? hs.tabled hunique)
      exact ⟨y, by rw [hworld, hy], Or.inr hnotFound⟩
  · obtain ⟨y, hy, -, hstays⟩ := h.finished_after hx hnotFound.agenda m
    exact ⟨y, hy, Or.inr (hnotFound.stays hstays)⟩

/-- A request that comes in is still to be served. -/
theorem shunned_of_new (hs : Sound h.toBooks h.world) {m : Move}
    (hr : (h.after m).origins[t]? = some (some r)) (ht : h.origins.length ≤ t) : (h.after m).Shunned t r := by
  obtain ⟨more, horigins, hnew⟩ := h.origins_after m
  rw [horigins, List.getElem?_append_right ht] at hr
  obtain rfl := hnew r (List.mem_of_getElem? hr)
  have hone : more = [some r] := List.append_cancel_left (horigins.symm.trans rfl)
  rw [hone, List.getElem?_eq_some_iff] at hr
  obtain ⟨hlt, -⟩ := hr
  have hlast : t = h.world.threads.length := by
    rw [List.length_singleton] at hlt
    rw [← hs.aligned]
    omega
  refine ⟨{ agenda := [.serve r] }, ?_, Or.inl rfl⟩
  rw [hlast]
  exact List.getElem?_concat_length

theorem idOf?_foldl (h : History) (moves : List Move) (hid : h.world.idOf? c = some id) :
    (moves.foldl after h).world.idOf? c = some id := by
  induction moves generalizing h with
  | nil => exact hid
  | cons m more ih => exact ih (h.after m) (h.idOf?_after m hid)

/-- Drains of a session that has faded which are not served yet, and those that are still to come. -/
theorem shunned_foldl (hs : Sound h.toBooks h.world) (hf : h.world.Faded c) (hid : h.world.idOf? c = some id)
    (hnames : r.names id = true) (hunserved : t < h.world.threads.length → h.world.agenda t = [.serve r])
    (moves : List Move) (hunique : ∀ d, (moves.foldl after h).world.idOf? d = some id → d = c)
    (hr : (moves.foldl after h).origins[t]? = some (some r)) : (moves.foldl after h).Shunned t r := by
  induction moves using List.reverseRecOn with
  | nil =>
    have hlt : t < h.world.threads.length := by
      rw [← hs.aligned]
      exact (List.getElem?_eq_some_iff.1 hr).1
    have hx := List.getElem?_eq_getElem hlt
    refine ⟨_, hx, Or.inl ?_⟩
    rw [← World.agenda_of_some hx]
    exact hunserved hlt
  | append_singleton more m ih =>
    rw [List.foldl_concat] at hunique hr ⊢
    have hs' := hs.foldl more
    set k := more.foldl after h
    have hunique' : ∀ d, k.world.idOf? d = some id → d = c := fun d hd => hunique d (k.idOf?_after m hd)
    by_cases hlt : t < k.origins.length
    · obtain ⟨news, horigins, -⟩ := k.origins_after m
      have hr' : k.origins[t]? = some (some r) := by
        rw [horigins, List.getElem?_append_left hlt] at hr
        exact hr
      exact (ih hunique' hr').after hs' (fades_foldl hf more).faded (h.idOf?_foldl more hid) hunique' hnames m
    · exact shunned_of_new hs' hr (Nat.not_lt.1 hlt)

end History

/-- A session that has lapsed does not come back, once no drain of it is in progress. Whatever happens next, and
whether or not a sweep has removed it yet, it has lapsed and is not drained, its handlers are told of no message
and the time of its last drain stays. If no other connection has its id, every drain that names it and was not
served before, whatever its body, has been answered that there is no such session, or will be when its thread
goes on. -/
theorem lapsed_sessions_stay (settings : Settings) (limiter : Option Limiter) (ids : Ids)
    (front back : List Move) (c : Nat) :
    let h := History.run settings limiter ids front
    let k := History.run settings limiter ids (front ++ back)
    h.world.lapsed c = true → h.world.busy c = false →
      k.world.lapsed c = true ∧ k.world.busy c = false ∧ k.toldFor c = h.toldFor c ∧
      (k.world.conn? c).map (·.queue.lastActivity) = (h.world.conn? c).map (·.queue.lastActivity) ∧
      ∀ id, h.world.idOf? c = some id → (∀ d, k.world.idOf? d = some id → d = c) →
        ∀ (t : Nat) (r : Request), k.origins[t]? = some (some r) → r.names id = true →
          (t < h.world.threads.length → h.world.agenda t = [.serve r]) →
          ∃ x, k.world.threads[t]? = some x ∧ (x.NotFound ∨ x.agenda = [.serve r] ∧
            ∃ y, (k.after (.step t)).world.threads[t]? = some y ∧ y.NotFound) := by
  intro h k hlapsed hidle
  have hs : Sound h.toBooks h.world := .run settings limiter ids front
  have hk : k = back.foldl History.after h := History.run_append settings limiter ids front back
  have hf : h.world.Faded c := World.Faded.iff.2 ⟨hlapsed, hidle⟩
  have hfades : h.Fades k c := hk ▸ History.fades_foldl hf back
  obtain ⟨hlapsed', hidle'⟩ := World.Faded.iff.1 hfades.faded
  refine ⟨hlapsed', hidle', hfades.told, ?_, ?_⟩
  · have hpulse := congrArg (Option.map Pulse.lastActivity) hfades.pulse
    rwa [World.getElem?_pulses, World.getElem?_pulses, Option.map_map, Option.map_map] at hpulse
  · intro id hid hunique t r hr hnames hunserved
    have hs' : Sound k.toBooks k.world := .run settings limiter ids (front ++ back)
    have hid' : k.world.idOf? c = some id := hk ▸ h.idOf?_foldl back hid
    have hshunned : k.Shunned t r := by
      rw [hk] at hunique hr ⊢
      exact History.shunned_foldl hs hf hid hnames hunserved back hunique hr
    obtain ⟨x, hx, hagenda | hnotFound⟩ := hshunned
    · refine ⟨x, hx, Or.inr ⟨hagenda, ?_⟩⟩
      have hnext : k.world.Next t x (.serve r) [] := ⟨hx, hagenda⟩
      rw [History.world_after_step (hnext.ready rfl rfl)]
      exact World.notFound_of_serve hnext hnames (hs'.tabled.named c id hid')
        (hfades.faded.liveSession? hs'.tabled hunique)
    · exact ⟨x, hx, Or.inl hnotFound⟩

/-- Settings with a session timeout of six nanoseconds. -/
def brief : Settings := { pollTimeout := 5, sessionTimeout := 6 }

/-- A session that is opened and then left alone for too long. -/
def forsaken : List Move :=
  .request { method := "POST", header := {}, body := [] } :: Watch.steps 0 3 ++ [.clock 7]

/-- A drain of the session, a sweep that removes it, and another drain that is not served yet. -/
def aftermath : List Move :=
  .request polling :: .step 1 :: .sweep :: Watch.steps 2 4 ++ [.clock 20, .request polling]

theorem lapsed_sessions_stay_forsaken :
    let h := History.run brief none {} forsaken
    let k := History.run brief none {} (forsaken ++ aftermath)
    h.world.lapsed 0 = true ∧ h.world.busy 0 = false ∧ h.world.sessions.length = 1 ∧
      k.world.sessions.length = 0 ∧ k.world.lapsed 0 = true ∧ k.toldFor 0 = [] ∧
      (k.world.conn? 0).map (·.queue.lastActivity) = some 0 ∧
      (∃ x, k.world.threads[1]? = some x ∧ x.NotFound) ∧
      ∃ y, (k.after (.step 3)).world.threads[3]? = some y ∧ y.NotFound := by
  have hbefore :
      let h := History.run brief none {} forsaken
      h.world.lapsed 0 = true ∧ h.world.busy 0 = false ∧ h.world.sessions.length = 1 ∧
        h.world.threads.length = 1 ∧ h.toldFor 0 = [] ∧
        (h.world.conn? 0).map (·.queue.lastActivity) = some 0 ∧ h.world.idOf? 0 = some (Ids.draw {}).1 := by
    decide +kernel
  have hafter :
      let k := History.run brief none {} (forsaken ++ aftermath)
      k.world.sessions.length = 0 ∧ k.world.Distinct ∧ k.world.idOf? 0 = some (Ids.draw {}).1 ∧
        (k.origins[1]?.join.any fun r => r.names (Ids.draw {}).1) = true ∧
        (k.origins[3]?.join.any fun r => r.names (Ids.draw {}).1) = true ∧
        (k.world.agenda 1).length = 0 ∧ (k.world.agenda 3).length = 1 := by
    decide +kernel
  have hstays := lapsed_sessions_stay brief none {} forsaken aftermath 0
  -- from here on only these facts about the runs matter
  generalize History.run brief none {} (forsaken ++ aftermath) = k at hafter hstays ⊢
  generalize History.run brief none {} forsaken = h at hbefore hstays ⊢
  obtain ⟨hlapsed, hidle, hsessions, hsize, htold, hactivity, hid⟩ := hbefore
  obtain ⟨hsessions', hdistinct, hid', horigin, horigin', hdone, hleft⟩ := hafter
  obtain ⟨hlapsed', -, htold', hactivity', hdrains⟩ := hstays hlapsed hidle
  have hunique : ∀ d, k.world.idOf? d = some (Ids.draw {}).1 → d = 0 := fun d hd =>
    World.distinct_iff.1 hdistinct d 0 _ hd hid'
  obtain ⟨r, hr, hnames⟩ := (Option.any_eq_true _ _).1 horigin
  obtain ⟨r', hr', hnames'⟩ := (Option.any_eq_true _ _).1 horigin'
  obtain ⟨x, hx, hanswer⟩ := hdrains _ hid hunique 1 r (Option.join_eq_some_iff.1 hr) hnames (by omega)
  obtain ⟨y, hy, hanswer'⟩ := hdrains _ hid hunique 3 r' (Option.join_eq_some_iff.1 hr') hnames' (by omega)
  rw [World.agenda_of_some hx] at hdone
  rw [World.agenda_of_some hy] at hleft
  refine ⟨hlapsed, hidle, hsessions, hsessions', hlapsed', htold'.trans htold, hactivity'.trans hactivity,
    ⟨x, hx, hanswer.resolve_right fun hwaits => ?_⟩, (hanswer'.resolve_left fun hnotFound => ?_).2⟩
  · rw [hwaits.1] at hdone
    cases hdone
  · rw [hnotFound.agenda] at hleft
    cases hleft

end PollSocket.Server
