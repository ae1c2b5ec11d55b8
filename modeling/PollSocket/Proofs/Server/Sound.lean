import PollSocket.Proofs.Server.Tables

set_option autoImplicit false

/-!
# The invariant of all histories of a server

`Sound` puts together what holds of a server in every history: its tables are consistent, every
message that a connection has accepted is taken or waits, and every thread is somewhere on its course.
Every move keeps it (`Sound.after`).
-/

namespace PollSocket.Server

variable {h : History} {number t : Nat} {o : Option Request} {data : String} {x : Thread}

/-- What holds of books and server after every move. -/
structure Sound (b : Books) (w : World) : Prop where
  tabled : w.Tabled
  conserved : Conserved b w
  aligned : b.origins.length = w.threads.length
  courses : ∀ (t : Nat) (x : Thread), w.threads[t]? = some x → ∃ o, b.origins[t]? = some o ∧
    Course w o (b.toldBy t) (b.takesBy t) (b.begunBy t) x
  /-- Threads that do not exist have done nothing. -/
  unborn : ∀ t, w.threads.length ≤ t → b.toldBy t = [] ∧ b.takesBy t = [] ∧ b.begunBy t = []

/-- An act of the handler that is being executed finds its place in the course of its thread. -/
theorem Course.push_act {w : World} {told : List (Nat × String)} {takes : List (Nat × List String)}
    {begun : List Nat} (h : Course w o told takes begun x) {c : Nat} {a : Act} {rest : List Duty}
    (hagenda : x.agenda = .act number c data a :: rest) (a' : Act) :
    Course w o told takes begun { x with agenda := .act number c data a' :: x.agenda } := by
  have hcons : ∀ {duties : List Duty}, (∀ d ∈ duties, d.side = true) →
      ∀ d ∈ Duty.act number c data a' :: duties, d.side = true := by
    intro duties hside d hd
    rcases List.mem_cons.1 hd with rfl | hd
    · rfl
    · exact hside d hd
  cases h with
  | aside hside => exact .aside (hcons hside)
  | unserved ha | refused ha | greeted _ _ ha | interrupted _ _ ha =>
    cases hagenda.symm.trans ha
  | greeting hopens hid hside ha hanswer hthrown =>
    exact .greeting hopens hid (hcons hside) (by rw [ha]; rfl) hanswer hthrown
  | @draining r _ d n q front back taken hadmitted hmessages hthrown hdrain =>
    set y : Thread := { x with agenda := .act number c data a' :: x.agenda } with hy
    have hdrain' : Drain d n y.unwritable back taken y.answer y.agenda := by
      rw [hy]
      generalize x.agenda = agenda at hdrain hagenda ⊢
      generalize x.answer = answer at hdrain ⊢
      cases hdrain with
      | delivering _ hside =>
        exact .delivering back (hcons hside)
      | _ => cases hagenda
    exact .draining hadmitted hmessages (show y.thrown = none from hthrown) hdrain'

namespace Sound

variable {b : Books} {w v : World}

/-- Connections and sessions stay, and threads stay on their courses. -/
theorem congr (h : Sound b w) (hconns : v.conns = w.conns) (hsessions : v.sessions = w.sessions)
    (hsize : v.threads.length = w.threads.length)
    (hcourses : ∀ (t : Nat) (y : Thread), v.threads[t]? = some y → ∃ o, b.origins[t]? = some o ∧
      Course w o (b.toldBy t) (b.takesBy t) (b.begunBy t) y) : Sound b v where
  tabled := h.tabled.congr (World.idOf?_of_conns_eq hconns) fun _ _ hc => by rwa [hsessions] at hc
  conserved c := by
    rw [World.pendingOf_of_conns_eq hconns]
    exact h.conserved c
  aligned := h.aligned.trans hsize.symm
  courses t y hy := by
    obtain ⟨o, ho, hcourse⟩ := hcourses t y hy
    refine ⟨o, ho, hcourse.congr (fun c id hc => ?_) rfl rfl rfl fun hu => hu⟩
    rwa [World.idOf?_of_conns_eq hconns]
  unborn t ht := h.unborn t (by rwa [← hsize])

/-- The flags of a caller change. -/
theorem updateThread (h : Sound b w) (t : Nat) {f : Thread → Thread}
    (hagenda : ∀ x, (f x).agenda = x.agenda) (hanswer : ∀ x, (f x).answer = x.answer)
    (hthrown : ∀ x, (f x).thrown = x.thrown)
    (hunwritable : ∀ x : Thread, x.unwritable = true → (f x).unwritable = true) :
    Sound b (w.updateThread t f) := by
  refine h.congr rfl rfl (List.length_modify _ _ _) fun u y hy => ?_
  rw [World.threads_updateThread] at hy
  split at hy
  · obtain ⟨x, hx, rfl⟩ := Option.map_eq_some_iff.1 hy
    obtain ⟨o, ho, hcourse⟩ := h.courses u x hx
    exact ⟨o, ho, hcourse.congr (fun _ _ hc => hc) (hagenda x) (hanswer x) (hthrown x)
      (hunwritable x)⟩
  · exact h.courses u y hy

/-- The handler that thread `t` is executing does an act besides those of its script. -/
theorem act (h : Sound b w) {c : Nat} (hacting : w.acting? t = some (number, c, data)) (a : Act) :
    Sound b (w.push t [.act number c data a]) := by
  refine h.congr rfl rfl (List.length_modify _ _ _) fun u y hy => ?_
  rw [World.push, World.threads_updateThread] at hy
  split at hy
  next hut =>
    obtain ⟨x, hx, rfl⟩ := Option.map_eq_some_iff.1 hy
    obtain ⟨o, ho, hcourse⟩ := h.courses u x hx
    obtain ⟨x', a', rest, hx'⟩ := World.acting?_eq_some hacting
    cases hx.symm.trans (hut ▸ hx'.thread)
    exact ⟨o, ho, hcourse.push_act hx'.agenda a⟩
  next => exact h.courses u y hy

/-- A thread is started. -/
theorem spawn (h : Sound b w) {agenda : List Duty} (hcourse : Course w o [] [] [] { agenda }) :
    Sound { b with origins := b.origins ++ [o] } (w.spawn { agenda }).1 := by
  have hthreads : (w.spawn { agenda }).1.threads = w.threads ++ [({ agenda } : Thread)] := rfl
  exact
    { tabled := h.tabled.congr (fun _ => rfl) fun _ _ hc => hc
      conserved := h.conserved
      aligned := by simp [hthreads, h.aligned]
      courses t y hy := by
        rw [hthreads] at hy
        by_cases heq : t = w.threads.length
        · rw [heq, List.getElem?_concat_length, Option.some.injEq] at hy
          obtain ⟨htold, htakes, hbegun⟩ := h.unborn t heq.ge
          refine ⟨o, ?_, ?_⟩
          · rw [heq, ← h.aligned, List.getElem?_concat_length]
          · show Course _ o (b.toldBy t) (b.takesBy t) (b.begunBy t) y
            rw [htold, htakes, hbegun, ← hy]
            exact hcourse.congr (fun _ _ hc => hc) rfl rfl rfl fun hu => hu
        · rw [getElem?_concat_of_ne heq] at hy
          obtain ⟨o', ho', hcourse'⟩ := h.courses t y hy
          refine ⟨o', ?_, hcourse'.congr (fun _ _ hc => hc) rfl rfl rfl fun hu => hu⟩
          rw [getElem?_concat_of_ne (by rwa [h.aligned]), ho']
      unborn t ht := by
        rw [hthreads, List.length_append] at ht
        exact h.unborn t (by omega) }

/-- A thread does its first duty. -/
theorem step (hs : Sound h.toBooks h.world) {d : Duty} {rest : List Duty} (hx : h.world.Next t x d rest) :
    Sound (h.enter h.world (h.world.stepThread t) t x d) (h.world.stepThread t) := by
  have heffect := hx.effect
  have hentries : ∀ {α : Type} (u : Nat) (o : Option α),
      entriesOf u (o.map (Prod.mk t)).toList = if u = t then o.toList else [] := by
    intro α u o
    rw [Option.toList_map, entriesOf_map]
  have hbooks : ∀ u, u ≠ t →
      (h.enter h.world (h.world.stepThread t) t x d).toldBy u = h.toldBy u ∧
      (h.enter h.world (h.world.stepThread t) t x d).takesBy u = h.takesBy u ∧
      (h.enter h.world (h.world.stepThread t) t x d).begunBy u = h.begunBy u := by
    intro u hu
    simp [Books.toldBy, Books.takesBy, Books.begunBy, Books.enter, hentries, hu]
  exact
    { tabled := heffect.tabled hs.tabled
      conserved := conserved_step hs.conserved hx
      aligned := hs.aligned.trans heffect.size.symm
      courses u y hy := by
        by_cases hu : u = t
        · subst hu
          -- the thread that steps goes on in its course, with what it enters
          obtain ⟨o, ho, hcourse⟩ := hs.courses u x hx.thread
          obtain ⟨z, hz, hnext⟩ := course_step hs.tabled hx hcourse
          obtain rfl : z = y := Option.some.inj (hz.symm.trans hy)
          refine ⟨o, ho, ?_⟩
          simpa [Books.toldBy, Books.takesBy, Books.begunBy, Books.enter, hentries] using hnext
        · -- the others are as they were, in a world that only adds ids
          obtain ⟨htold, htakes, hbegun⟩ := hbooks u hu
          rw [heffect.others u hu] at hy
          obtain ⟨o, ho, hcourse⟩ := hs.courses u y hy
          refine ⟨o, ho, ?_⟩
          rw [htold, htakes, hbegun]
          exact hcourse.congr heffect.ids rfl rfl rfl fun hw => hw
      unborn u hu := by
        rw [heffect.size] at hu
        have hut : u ≠ t := by
          rintro rfl
          exact absurd (List.getElem?_eq_some_iff.1 hx.thread).1 (Nat.not_lt_of_le hu)
        obtain ⟨htold, htakes, hbegun⟩ := hbooks u hut
        obtain ⟨htold', htakes', hbegun'⟩ := hs.unborn u hu
        exact ⟨htold.trans htold', htakes.trans htakes', hbegun.trans hbegun'⟩ }

/-- Every move keeps the invariant. -/
theorem after (hs : Sound h.toBooks h.world) (m : Move) : Sound (h.after m).toBooks (h.after m).world := by
  cases m with
  | step t =>
    rcases h.step_cases t with ⟨-, hsame⟩ | ⟨-, x, d, rest, hx, hstep⟩
    · rwa [hsame]
    · rw [hstep]
      exact hs.step hx
  | request r => exact hs.spawn (.unserved rfl rfl rfl)
  | send c text | broadcast text | close c | sweep => exact hs.spawn (.aside (by simp [Duty.side]))
  | shutdown =>
    have hstopped : Sound h.toBooks { h.world with stopped := true } :=
      hs.congr rfl rfl rfl fun t y hy => hs.courses t y hy
    exact hstopped.spawn (.aside (by simp [Duty.side]))
  | act t a =>
    unfold History.after
    dsimp only
    split
    next hacting => exact hs.act hacting a
    next => exact hs
  | cancel t | prefer t => exact hs.updateThread t (fun _ => rfl) (fun _ => rfl) (fun _ => rfl) fun _ hu => hu
  | sever t => exact hs.updateThread t (fun _ => rfl) (fun _ => rfl) (fun _ => rfl) fun _ _ => rfl
  | clock now | register event reaction => exact hs.congr rfl rfl rfl fun t y hy => hs.courses t y hy

theorem new (settings : Settings) (limiter : Option Limiter) (ids : Ids) :
    Sound (History.new settings limiter ids).toBooks (History.new settings limiter ids).world where
  tabled := ⟨by simp [History.new, World.new], by simp [History.new, World.new, World.idOf?, World.conn?]⟩
  conserved c := by simp [History.new, World.new, World.pendingOf, World.conn?, Books.acceptedBy,
    Books.takesFrom]
  aligned := rfl
  courses t x hx := by simp [History.new, World.new] at hx
  unborn t _ := ⟨rfl, rfl, rfl⟩

theorem foldl (hs : Sound h.toBooks h.world) (moves : List Move) :
    Sound (moves.foldl History.after h).toBooks (moves.foldl History.after h).world := by
  induction moves generalizing h with
  | nil => exact hs
  | cons m more ih => exact ih (hs.after m)

theorem run (settings : Settings) (limiter : Option Limiter) (ids : Ids) (moves : List Move) :
    Sound (History.run settings limiter ids moves).toBooks (History.run settings limiter ids moves).world :=
  (Sound.new settings limiter ids).foldl moves

end Sound

/-- How a thread is left by a move that is not a step of its own: as it is, but for the flags of its caller,
or with an act of its handler planned. -/
structure Thread.Stays (x y : Thread) : Prop where
  answer : y.answer = x.answer
  thrown : y.thrown = x.thrown
  unwritable : x.unwritable = true → y.unwritable = true
  agenda : y.agenda = x.agenda ∨ x.agenda ≠ [] ∧ ∃ d, d.side = true ∧ y.agenda = d :: x.agenda

namespace History

theorem origins_after_step (h : History) (t : Nat) : (h.after (.step t)).origins = h.origins := by
  rcases h.step_cases t with ⟨-, hsame⟩ | ⟨-, x, d, rest, -, hstep⟩
  · rw [hsame]
  · rw [hstep]
    rfl

/-- Threads keep the requests they serve, and a thread that is new serves the request that came in. -/
theorem origins_after (h : History) (m : Move) : ∃ more, (h.after m).origins = h.origins ++ more ∧
    ∀ r, some r ∈ more → m = .request r := by
  have hsame : ∀ {k : History}, k.origins = h.origins → ∃ more, k.origins = h.origins ++ more ∧
      ∀ r, some r ∈ more → m = .request r := fun hk => ⟨[], by rw [hk, List.append_nil], by simp⟩
  cases m with
  | step t => exact hsame (h.origins_after_step t)
  | request r =>
    refine ⟨[some r], rfl, fun r' hr => ?_⟩
    rw [List.mem_singleton, Option.some.injEq] at hr
    rw [hr]
  | send | broadcast | close | shutdown | sweep => exact ⟨[none], rfl, by simp⟩
  | act t a =>
    refine hsame ?_
    unfold after
    dsimp only
    split <;> rfl
  | _ => exact hsame rfl

/-- A move leaves a thread so, or it is a step of the thread. -/
theorem thread_after (h : History) (hx : h.world.threads[t]? = some x) (m : Move) :
    (∃ y, (h.after m).world.threads[t]? = some y ∧ x.Stays y) ∨
    ∃ d rest, x.agenda = d :: rest ∧ (h.after m).world = h.world.stepThread t := by
  have hsame : ∀ {w : World}, w.threads[t]? = some x → ∃ y, w.threads[t]? = some y ∧ x.Stays y :=
    fun hw => ⟨x, hw, rfl, rfl, id, Or.inl rfl⟩
  have hflags : ∀ (u : Nat) {f : Thread → Thread}, (∀ z, (f z).agenda = z.agenda) →
      (∀ z, (f z).answer = z.answer) → (∀ z, (f z).thrown = z.thrown) →
      (∀ z : Thread, z.unwritable = true → (f z).unwritable = true) →
      ∃ y, (h.world.updateThread u f).threads[t]? = some y ∧ x.Stays y := by
    intro u f hagenda hanswer hthrown hunwritable
    rw [World.threads_updateThread, hx]
    split
    · exact ⟨_, rfl, hanswer x, hthrown x, hunwritable x, Or.inl (hagenda x)⟩
    · exact ⟨x, rfl, rfl, rfl, id, Or.inl rfl⟩
  cases h.turns_after m with
  | still hthreads => exact Or.inl (hsame (by rw [hthreads, hx]))
  | @steps u y d rest _ _ hy hv =>
    by_cases hut : t = u
    · subst hut
      cases hx.symm.trans hy.thread
      exact Or.inr ⟨d, rest, hy.agenda, hv⟩
    · rw [hv]
      exact Or.inl (hsame ((hy.effect.others t hut).trans hx))
  | spawns _ hthreads =>
    refine Or.inl (hsame ?_)
    rw [hthreads, List.getElem?_append_left (List.getElem?_eq_some_iff.1 hx).1, hx]
  | @acts u number c data a a' y rest _ hy hv =>
    rw [hv]
    by_cases hut : t = u
    · subst hut
      cases hx.symm.trans hy.thread
      exact Or.inl ⟨_, World.threads_push hx _, rfl, rfl, id, Or.inr ⟨by simp [hy.agenda], _, rfl, rfl⟩⟩
    · exact Or.inl (hsame (((World.Effect.push u h.world _).others t hut).trans hx))
  | cancels hv | prefers hv =>
    rw [hv]
    exact Or.inl (hflags _ (fun _ => rfl) (fun _ => rfl) (fun _ => rfl) fun _ hu => hu)
  | severs hv =>
    rw [hv]
    exact Or.inl (hflags _ (fun _ => rfl) (fun _ => rfl) (fun _ => rfl) fun _ _ => rfl)

/-- A thread that has come to its end stays as it is, but for the flags of its caller. -/
theorem finished_after (h : History) (hx : h.world.threads[t]? = some x)
    (hagenda : x.agenda = []) (m : Move) :
    ∃ y, (h.after m).world.threads[t]? = some y ∧ y.agenda = [] ∧ x.Stays y := by
  rcases h.thread_after hx m with ⟨y, hy, hstays⟩ | ⟨d, rest, hd, -⟩
  · rcases hstays.agenda with hsame | ⟨hbusy, -⟩
    · exact ⟨y, hy, hsame.trans hagenda, hstays⟩
    · exact absurd hagenda hbusy
  · cases hagenda.symm.trans hd

end History

end PollSocket.Server
