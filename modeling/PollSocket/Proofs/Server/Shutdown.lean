import PollSocket.Proofs.Server.Calm

set_option autoImplicit false

/-!
# Shutting a server down

The thread that shuts the server down does nothing but close connections and call handlers, and as long as
nobody throws and its caller does not give up, every connection that was online when it started is closed or
still on its agenda (`World.Closing`). A connection is closed once, an event is told once, and what handlers
do before the next event is bounded by their scripts: so the thread comes to its end by its own steps
(`Chronicle.finishes`).
-/

namespace PollSocket.Server

variable {d : Duty} {cs : List Nat} {c : Nat}

/-! ## What is left to close -/

/-- The duty is one of a thread that shuts the server down. -/
def Duty.closing : Duty → Bool
  | .shutdown _ => true
  | d => d.handled

/-- Connections that a duty is to close. -/
def Duty.targets : Duty → List Nat
  | .close c => [c]
  | .shutdown cs => cs
  | _ => []

theorem Duty.side_of_closing (h : d.closing = true) : d.side = true := by
  cases d with
  | trigger event c data => exact h
  | react | act | broadcast | close | shutdown => rfl
  | _ => cases h

theorem Duty.isTrigger_of_closing (h : d.closing = true) (hquiet : d.event? = none) :
    d.isTrigger = false := by
  cases d with
  | trigger event c data =>
    have hevent : event ≠ "message" := by simpa [Duty.closing, Duty.handled] using h
    simp [Duty.event?, hevent] at hquiet
  | react | act | broadcast | close | shutdown => rfl
  | _ => rfl

theorem Duty.concludes_of_closing (h : d.closing = true) {x : Thread} (hx : x.cancelled = false) :
    d.concludes x = false := by
  cases d with
  | send => cases h
  | shutdown cs =>
    cases cs with
    | nil => rfl
    | cons c more => exact hx
  | _ => rfl

namespace World

variable {w v : World} {t : Nat} {x : Thread} {rest : List Duty}

/-- The connection is connected. -/
def isOpen (w : World) (c : Nat) : Bool := (w.row? c).any fun row => row.2.1

/-- A connection that has been closed stays so. -/
theorem Changes.isOpen {news : Option (Nat × String)} (h : w.Changes v news) (hc : c < w.conns.length)
    (hopen : v.isOpen c = true) : w.isOpen c = true := by
  unfold World.isOpen at hopen ⊢
  cases h with
  | nothing hrows => rwa [hrows] at hopen
  | opens hrows => rwa [hrows, if_neg (Nat.ne_of_lt hc)] at hopen
  | closes hrow hrows =>
    rw [hrows] at hopen
    split at hopen
    · cases hopen
    · exact hopen

/-- What is closed is not open any more. -/
theorem isOpen_closeConn (w : World) (t c : Nat) : (w.closeConn t c).isOpen c = false := by
  unfold closeConn
  cases hy : w.conn? c with
  | none =>
    have hnone : w.row? c = none := by
      rw [row?_eq_face, getElem?_faces, hy]
      rfl
    rw [isOpen, hnone]
    rfl
  | some y =>
    dsimp only
    split
    next =>
      have hshut : (w.updateConn c fun x => { x with connected := false, queue := x.queue.close }).conn? c =
          some { y with connected := false, queue := y.queue.close } := by
        rw [conn?_updateConn, if_pos rfl, hy]
        rfl
      exact congrArg (Option.any fun row => row.2.1) (row?_of_conn hshut)
    next hconnected =>
      rw [isOpen, row?_of_conn hy]
      simpa using hconnected

/-- What comes next of connections that are to be closed. -/
def closeNext : List Nat → List Duty
  | [] => []
  | c :: more => [.close c, .shutdown more]

theorem mem_targets_closeNext (hc : c ∈ cs) : ∃ e ∈ closeNext cs, c ∈ e.targets := by
  cases cs with
  | nil => cases hc
  | cons c' more =>
    rcases List.mem_cons.1 hc with rfl | hc
    · exact ⟨.close c, by simp [closeNext], by simp [Duty.targets]⟩
    · exact ⟨.shutdown more, by simp [closeNext], hc⟩

/-- What the duty to close connections plans, as long as the caller has not given up. -/
theorem threads_shutdown (hx : w.Next t x (.shutdown cs) rest)
    (hcancelled : x.cancelled = false) :
    (w.stepThread t).threads[t]? = some { x with agenda := closeNext cs ++ rest } := by
  have hpop := threads_pop hx.thread rest
  rw [hx.step_eq]
  cases cs with
  | nil => exact hpop
  | cons c more =>
    have hgoes : ¬ x.cancelled = true := by simp [hcancelled]
    rw [discharge, if_neg hgoes]
    exact threads_push hpop _

/-- What a step of a thread that shuts the server down does: it plans more of the same, or it closes a
connection and has to tell of that. -/
structure Proceeds (w : World) (t : Nat) (x : Thread) (d : Duty) (rest : List Duty) (z : Thread)
    (pushed : List Duty) : Prop where
  thread : (w.stepThread t).threads[t]? = some z
  cancelled : z.cancelled = x.cancelled
  thrown : z.thrown = x.thrown
  outcome : z.outcome = x.outcome
  agenda : z.agenda = pushed ++ rest
  kind : ∀ e ∈ pushed, e.closing = true
  targets : ∀ c ∈ d.targets, (w.stepThread t).isOpen c = true → ∃ e ∈ pushed, c ∈ e.targets
  cause : d.Leads w pushed ∧ w.Steady (w.stepThread t) ∨
    ∃ c y, pushed = [.trigger "disconnect" c ""] ∧ w.conn? c = some y ∧ y.connected = true ∧
      (w.stepThread t).faces = w.faces.modify c Face.shut ∧
      (w.stepThread t).online = dropEntry y.id w.online

theorem proceeds_stepThread (hx : w.Next t x d rest)
    (hd : d.closing = true) (hcalm : d.calm = true) (hcancelled : x.cancelled = false) :
    ∃ z pushed, w.Proceeds t x d rest z pushed := by
  obtain ⟨z, hz, hkeeps, hdoes⟩ := hx.steps
  have houtcome := hkeeps.outcome (Duty.concludes_of_closing hd hcancelled)
  have hclosed : ∀ c, d = .close c → (w.stepThread t).isOpen c = false := by
    rintro c rfl
    rw [hx.step_eq]
    exact isOpen_closeConn _ t c
  cases hdoes with
  | @plans pushed _ hleads hagenda' hthrown hsteady =>
    have hkind : d.handled = true → ∀ e ∈ pushed, e.closing = true := by
      intro hhandled e he
      have hsame := hleads.handled hhandled e he
      cases e with
      | shutdown => rfl
      | _ => exact hsame
    cases d with
    | shutdown cs =>
      -- here the agenda is known exactly
      have hexact := threads_shutdown hx hcancelled
      rw [hz, Option.some.injEq] at hexact
      have hsame : pushed ++ rest = closeNext cs ++ rest := by rw [← hagenda', hexact]
      obtain rfl := List.append_cancel_right hsame
      refine ⟨z, closeNext cs, hz, hkeeps.cancelled, hthrown, houtcome, hagenda', ?_, ?_,
        Or.inl ⟨hleads, hsteady⟩⟩
      · cases cs with
        | nil => simp [closeNext]
        | cons c more => simp [closeNext, Duty.closing, Duty.handled]
      · intro c hc _
        exact mem_targets_closeNext hc
    | close c =>
      refine ⟨z, pushed, hz, hkeeps.cancelled, hthrown, houtcome, hagenda', hkind rfl, ?_,
        Or.inl ⟨hleads, hsteady⟩⟩
      intro c' hc' hopen
      rw [List.mem_singleton.1 hc', hclosed c rfl] at hopen
      cases hopen
    | trigger | react | act | broadcast =>
      refine ⟨z, pushed, hz, hkeeps.cancelled, hthrown, houtcome, hagenda', hkind hd, ?_,
        Or.inl ⟨hleads, hsteady⟩⟩
      rintro c ⟨⟩
    | _ => cases hd
  | @closes c y hclose hy hconnected hagenda' hthrown hfaces _ honline =>
    refine ⟨z, [.trigger "disconnect" c ""], hz, hkeeps.cancelled, hthrown, houtcome, hagenda', ?_, ?_,
      Or.inr ⟨c, y, rfl, hy, hconnected, hfaces, honline⟩⟩
    · intro e he
      rw [List.mem_singleton.1 he]
      rfl
    · intro c' hc' hopen
      rw [hclose, Duty.targets, List.mem_singleton] at hc'
      rw [hc', hclosed c hclose] at hopen
      cases hopen
  | opens hother | locks hother | unlocks hother =>
    rw [hother] at hd
    cases hd
  | throws hthrow =>
    rw [hthrow] at hcalm
    cases hcalm

/-- Thread `t` shuts the server down: nothing has come in its way, and the first `n` connections, as far as
they are open, are still to be closed by it. -/
structure Closing (w : World) (t n : Nat) : Prop where
  thread : ∃ x, w.threads[t]? = some x ∧ x.cancelled = false ∧ x.thrown = none ∧ x.outcome = .ok ()
  kind : ∀ d ∈ w.agenda t, d.closing = true
  left : ∀ c, c < n → w.isOpen c = true → ∃ d ∈ w.agenda t, c ∈ d.targets

namespace Closing

variable {n : Nat}

/-- The thread has at most got something more to do. -/
theorem adds (h : w.Closing t n)
    (hthread : ∀ x, w.threads[t]? = some x → ∃ z more, v.threads[t]? = some z ∧
      z.cancelled = x.cancelled ∧ z.thrown = x.thrown ∧ z.outcome = x.outcome ∧
      z.agenda = more ++ x.agenda ∧ ∀ e ∈ more, e.closing = true)
    (hopen : ∀ c, c < n → v.isOpen c = true → w.isOpen c = true) : v.Closing t n := by
  obtain ⟨x, hx, hcancelled, hthrown, houtcome⟩ := h.thread
  obtain ⟨z, more, hz, hzc, hzt, hzo, hagenda, hmore⟩ := hthread x hx
  have hv : v.agenda t = more ++ w.agenda t := by
    rw [agenda_of_some hz, hagenda, agenda_of_some hx]
  constructor
  · exact ⟨z, hz, hzc.trans hcancelled, hzt.trans hthrown, hzo.trans houtcome⟩
  · intro d hd
    rw [hv] at hd
    rcases List.mem_append.1 hd with hd | hd
    · exact hmore d hd
    · exact h.kind d hd
  · intro c hc hopen'
    obtain ⟨d, hd, hcd⟩ := h.left c hc (hopen c hc hopen')
    refine ⟨d, ?_, hcd⟩
    rw [hv]
    exact List.mem_append_right _ hd

/-- The thread has not been touched. -/
theorem of_thread_eq (h : w.Closing t n) (hthread : v.threads[t]? = w.threads[t]?)
    (hopen : ∀ c, c < n → v.isOpen c = true → w.isOpen c = true) : v.Closing t n :=
  h.adds (fun x hx => ⟨x, [], hthread.trans hx, rfl, rfl, rfl, rfl, by simp⟩) hopen

/-- A thread gets something to do that closing consists of. -/
theorem push (h : w.Closing t n) (u : Nat) (hd : d.closing = true) : (w.push u [d]).Closing t n := by
  refine h.adds (fun x hx => ?_) fun _ _ hopen => hopen
  by_cases hu : t = u
  · subst hu
    exact ⟨_, [d], threads_push hx [d], rfl, rfl, rfl, rfl, by simpa using hd⟩
  · refine ⟨x, [], ?_, rfl, rfl, rfl, rfl, by simp⟩
    rw [World.push, threads_updateThread, if_neg hu, hx]

/-- The thread does its first duty. -/
theorem step (h : w.Closing t n) (hx : w.Next t x d rest)
    (hcalm : d.calm = true)
    (hopen : ∀ c, c < n → (w.stepThread t).isOpen c = true → w.isOpen c = true) :
    (w.stepThread t).Closing t n := by
  obtain ⟨x', hx', hcancelled, hthrown, houtcome⟩ := h.thread
  cases hx'.symm.trans hx.thread
  have hw : w.agenda t = d :: rest := hx.agenda_eq
  have hkind : ∀ e ∈ d :: rest, e.closing = true := hw ▸ h.kind
  obtain ⟨z, pushed, hgoes⟩ :=
    proceeds_stepThread hx (hkind d List.mem_cons_self) hcalm hcancelled
  have hv : (w.stepThread t).agenda t = pushed ++ rest :=
    (agenda_of_some hgoes.thread).trans hgoes.agenda
  constructor
  · exact ⟨z, hgoes.thread, hgoes.cancelled.trans hcancelled, hgoes.thrown.trans hthrown,
      hgoes.outcome.trans houtcome⟩
  · intro e he
    rw [hv] at he
    rcases List.mem_append.1 he with he | he
    · exact hgoes.kind e he
    · exact hkind e (List.mem_cons_of_mem _ he)
  · intro c hc hopen'
    rw [hv]
    obtain ⟨e, he, hce⟩ := h.left c hc (hopen c hc hopen')
    rw [hw] at he
    rcases List.mem_cons.1 he with rfl | he
    · -- it is the turn of the connection, or that of the list it is on
      obtain ⟨e', he', hce'⟩ := hgoes.targets c hce hopen'
      exact ⟨e', List.mem_append_left _ he', hce'⟩
    · exact ⟨e, List.mem_append_right _ he, hce⟩

end Closing

end World

namespace Chronicle

/-- Whatever happens while the server is shut down: nothing comes in the way of it but its caller. -/
theorem closing_after {s : Chronicle} {t n : Nat} (h : s.world.Closing t n) {record : List (Nat × String)}
    (hrecords : s.Records record) (hn : n ≤ s.world.conns.length) (hcalm : s.world.Calm) {turn : Turn}
    (hturn : turn ≠ .move (.cancel t)) : (s.after turn).world.Closing t n := by
  obtain ⟨news, hchanges, -⟩ := records_after hrecords turn
  have hopen : ∀ c, c < n → (s.after turn).world.isOpen c = true → s.world.isOpen c = true :=
    fun c hc => hchanges.isOpen (Nat.lt_of_lt_of_le hc hn)
  cases turn with
  | closes u c =>
    rw [after]
    split
    · exact h.push u rfl
    · exact h
  | move m =>
    rcases world_after_move s m with hidle | hmoved
    · rw [hidle]
      exact h
    · have hturns := s.toHistory.turns_after m
      rw [← hmoved] at hturns
      generalize (s.after (.move m)).world = v at hturns hopen ⊢
      obtain ⟨x, hx, -⟩ := h.thread
      cases hturns with
      | still hthreads => exact h.of_thread_eq (by rw [hthreads]) hopen
      | @steps u y d rest _ _ hy hv =>
        subst hv
        by_cases hu : t = u
        · subst hu
          refine h.step hy ?_ hopen
          exact hcalm.duties y (List.mem_of_getElem? hy.thread) d (hy.agenda ▸ List.mem_cons_self)
        · exact h.of_thread_eq (hy.effect.others t hu) hopen
      | spawns _ hthreads =>
        refine h.of_thread_eq ?_ hopen
        rw [hthreads, List.getElem?_append_left (List.getElem?_eq_some_iff.1 hx).1]
      | @acts u _ _ _ _ _ _ _ _ _ hv =>
        subst hv
        exact h.push u rfl
      | @cancels u _ hv =>
        have hu : t ≠ u := by
          rintro rfl
          exact hturn rfl
        subst hv
        refine h.of_thread_eq ?_ hopen
        rw [World.threads_updateThread, if_neg hu]
      | severs hv | prefers hv =>
        subst hv
        refine h.adds (fun y hy => ?_) hopen
        rw [World.threads_updateThread, hy]
        split
        · exact ⟨_, [], rfl, by simp⟩
        · exact ⟨y, [], rfl, by simp⟩

end Chronicle

/-! ## The end of it -/

/-- One connection less is open. -/
theorem Face.countP_modify_shut {faces : List Face} {f : Face} (hf : faces[c]? = some f)
    (hconnected : f.connected = true) :
    (faces.modify c Face.shut).countP Face.connected + 1 = faces.countP Face.connected := by
  induction faces generalizing c with
  | nil => cases hf
  | cons g more ih =>
    cases c with
    | zero =>
      obtain rfl : g = f := by simpa using hf
      simp [Face.shut, hconnected]
    | succ c =>
      have hmore := ih (by simpa using hf)
      simp only [List.modify_succ_cons, List.countP_cons]
      omega

namespace World

variable {w : World} {t : Nat} {x z : Thread} {rest pushed : List Duty}

/-- What a thread that shuts the server down has still before it: connections that are open, events to be
told, and steps before the next event. -/
def burden (w : World) (t n : Nat) : Nat × Nat × Nat :=
  (w.faces.countP Face.connected, (w.agenda t).countP Duty.isTrigger, total (Duty.weight n) (w.agenda t))

namespace Proceeds

variable (h : w.Proceeds t x d rest z pushed)
include h

theorem size : (w.stepThread t).conns.length = w.conns.length := by
  rw [← length_faces, ← length_faces]
  rcases h.cause with ⟨-, hsteady⟩ | ⟨c, y, -, -, -, hfaces, -⟩
  · rw [hsteady.faces]
  · rw [hfaces, List.length_modify]

theorem online_le : (w.stepThread t).online.length ≤ w.online.length := by
  rcases h.cause with ⟨-, hsteady⟩ | ⟨c, y, -, -, -, -, honline⟩
  · rw [hsteady.online]
  · rw [honline]
    exact List.length_filter_le _ _

/-- A step makes the burden less. -/
theorem lighter (hw : w.agenda t = d :: rest) (hd : d.closing = true) {n : Nat} (hn : w.online.length ≤ n) :
    Prod.Lex (· < ·) (Prod.Lex (· < ·) (· < ·)) ((w.stepThread t).burden t n) (w.burden t n) := by
  have hv : (w.stepThread t).agenda t = pushed ++ rest := (agenda_of_some h.thread).trans h.agenda
  rcases h.cause with ⟨hleads, hsteady⟩ | ⟨c, y, -, hy, hconnected, hfaces, -⟩
  · -- no event is planned, so that only an event that is told changes their number
    have hquiet : pushed.countP Duty.isTrigger = 0 := by
      rw [List.countP_eq_zero]
      intro e he
      rw [Duty.isTrigger_of_closing (h.kind e he) (hleads.quiet e he)]
      exact Bool.false_ne_true
    have htriggers : ((w.stepThread t).agenda t).countP Duty.isTrigger = rest.countP Duty.isTrigger := by
      rw [hv, List.countP_append, hquiet, Nat.zero_add]
    unfold burden
    rw [hsteady.faces, htriggers, hw, hv]
    apply Prod.Lex.right
    cases htold : d.isTrigger with
    | true =>
      apply Prod.Lex.left
      rw [List.countP_cons, if_pos htold]
      exact Nat.lt_succ_self _
    | false =>
      rw [List.countP_cons, if_neg (by simp [htold])]
      apply Prod.Lex.right
      rw [total_append]
      exact Nat.add_lt_add_right (hleads.light n hn (Duty.side_of_closing hd) htold) _
  · apply Prod.Lex.left
    have hf : w.faces[c]? = some y.face := by
      rw [getElem?_faces, hy]
      rfl
    have hless := Face.countP_modify_shut hf hconnected
    rw [hfaces]
    omega

end Proceeds

/-- Nothing keeps the thread from going on. -/
theorem ready_of_closing (hx : w.Next t x d rest)
    (hd : d.closing = true) : w.ready t = true := by
  unfold ready
  rw [hx.thread]
  dsimp only
  rw [hx.agenda]
  cases d with
  | trigger | react | act | broadcast | close | shutdown => rfl
  | _ => cases hd

end World

namespace Chronicle

/-- A thread that shuts the server down comes to its end by its own steps. -/
theorem finishes (bound : Nat) (s : Chronicle) {t n : Nat} (hclosing : s.world.Closing t n)
    {record : List (Nat × String)} (hrecords : s.Records record) (hn : n ≤ s.world.conns.length)
    (hcalm : s.world.Calm) (hclear : s.world.clear t = true) (hbound : s.world.online.length ≤ bound) :
    ∃ k, ((List.replicate k (Turn.move (.step t))).foldl after s).world.agenda t = [] ∧
      ((List.replicate k (Turn.move (.step t))).foldl after s).world.conns.length =
        s.world.conns.length := by
  cases hw : s.world.agenda t with
  | nil => exact ⟨0, hw, rfl⟩
  | cons d rest =>
    obtain ⟨x, hx, hcancelled, -⟩ := hclosing.thread
    have hnext : s.world.Next t x d rest := ⟨hx, (World.agenda_of_some hx).symm.trans hw⟩
    have hd : d.closing = true := hclosing.kind d (hw ▸ List.mem_cons_self)
    have hquiet : d.calm = true :=
      hcalm.duties x (List.mem_of_getElem? hx) d (hnext.agenda ▸ List.mem_cons_self)
    obtain ⟨z, pushed, hgoes⟩ := World.proceeds_stepThread hnext hd hquiet hcancelled
    have hstep : (s.after (.move (.step t))).world = s.world.stepThread t := by
      apply world_after_step
      · simp [World.permits, hclear]
      · exact World.ready_of_closing hnext hd
    have hlighter := hgoes.lighter hw hd hbound
    obtain ⟨news, -, hrecords'⟩ := records_after hrecords (.move (.step t))
    have hclear' : (s.world.stepThread t).clear t = true := by
      rw [World.clear_iff] at hclear ⊢
      intro u hu
      rw [World.due?_congr (hnext.agenda_other hu)]
      exact hclear u hu
    obtain ⟨k, hend, hsize⟩ := finishes bound (s.after (.move (.step t)))
      (closing_after hclosing hrecords hn hcalm (by rintro ⟨⟩)) hrecords'
      (by rw [hstep, hgoes.size]; exact hn) (calm_after hcalm rfl) (by rw [hstep]; exact hclear')
      (by rw [hstep]; exact hgoes.online_le.trans hbound)
    refine ⟨k + 1, hend, ?_⟩
    rw [List.replicate_succ, List.foldl_cons, hsize, hstep, hgoes.size]
termination_by s.world.burden t bound
decreasing_by
  rw [hstep]
  exact hlighter

/-- An event that another thread has due begins with its next step. -/
theorem clears {s : Chronicle} {record : List (Nat × String)} (hrecords : s.Records record) (t : Nat) :
    ∃ first : List Nat, first.length ≤ 1 ∧
      ((first.map fun u => Turn.move (.step u)).foldl after s).world.clear t = true ∧
      ((first.map fun u => Turn.move (.step u)).foldl after s).world.conns.length =
        s.world.conns.length := by
  by_cases hclear : s.world.clear t = true
  · exact ⟨[], Nat.zero_le 1, hclear, rfl⟩
  · obtain ⟨hordered, due, hpending, -⟩ := hrecords
    have hother : ∃ u e, s.world.due? u = some e := by
      by_contra hno
      apply hclear
      rw [World.clear_iff]
      intro u _
      by_contra hsome
      obtain ⟨e, he⟩ := Option.ne_none_iff_exists'.1 hsome
      exact hno ⟨u, e, he⟩
    obtain ⟨u, e, he⟩ := hother
    obtain ⟨-, hnone⟩ := hpending.eq_of_due he
    refine ⟨[u], Nat.le_refl 1, ?_⟩
    -- the duty of that thread is not one that has to wait
    have hready : s.world.ready u = true := by
      by_contra hnot
      rw [World.due?_of_waiting fun hgoes => hnot hgoes.2] at he
      cases he
    obtain ⟨x, d, rest, hx⟩ := World.agenda_of_ready hready
    have hw : s.world.agenda u = d :: rest := hx.agenda_eq
    rw [World.due?_of_agenda hw] at he
    have hd : d.exposed = false := by
      cases d with
      | trigger => rfl
      | _ => cases he
    have hpermits : s.world.permits u = true := by simp [World.permits, hw, hd]
    have hstep := world_after_step hpermits hready
    obtain ⟨z, hz, -, hdoes⟩ := hx.steps
    obtain ⟨news, hchanges, hnews, -, hplain⟩ :=
      hdoes.changes fun e he => hordered u e (by rwa [hw])
    obtain rfl := hplain hd
    rw [List.map_singleton, List.foldl_cons, List.foldl_nil, hstep]
    constructor
    · rw [World.clear_iff]
      intro u' _
      by_cases hu : u' = u
      · rw [hu, World.due?, World.agenda_of_some hz, hnews]
      · have hothers := hx.effect.others u' hu
        rw [World.due?_congr (World.agenda_congr hothers), hnone u' hu]
    · cases hchanges with
      | nothing _ hsize => exact hsize

end Chronicle

end PollSocket.Server
