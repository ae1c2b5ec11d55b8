import PollSocket.Proofs.Server.Chronicle

set_option autoImplicit false

/-!
# Time, step by step

Of a connection only its pulse matters here: how long its session lasts without a drain, and when it was
drained last. A step of a thread keeps all pulses and the clock, unless it takes from a connection or opens
one. `World.Beats` says so once for all duties, together with the connections that the thread is to close
after the step, and `World.Next.beats` says that every step is one of these.
-/

namespace PollSocket.Poll.Queue

variable {deadline : Int}

variable (q : Queue)

/-- A take notes that it has started. -/
theorem lastActivity_startTake (now : Int) (cancelled : Bool) (wait : Int) :
    (q.startTake now cancelled wait).1.lastActivity = now := by
  unfold startTake
  dsimp only
  split
  · rfl
  · split <;> rfl

/-- When time is up a take has its result, or has used up a token that was left from before. -/
theorem resumeTake_of_deadline {now : Int} (cancelled : Bool) (preferred : Wake) (h : deadline ≤ now) :
    (∃ result, (q.resumeTake now cancelled deadline preferred).2 = .done result) ∨
      q.token = true ∧ (q.resumeTake now cancelled deadline preferred).1.token = false := by
  unfold resumeTake
  split
  next hnone =>
    have hdue := List.find?_eq_none.1 hnone .deadline (by simp)
    exact absurd (decide_eq_true h) hdue
  next htoken =>
    dsimp only
    split
    · exact Or.inr ⟨wakesFor_of_reason htoken, rfl⟩
    · exact Or.inl ⟨_, rfl⟩
  next => exact Or.inl ⟨_, rfl⟩
  next => exact Or.inl ⟨_, rfl⟩

end PollSocket.Poll.Queue

namespace PollSocket.Server

variable {y : Conn} {e : Duty} {deadline : Int} {pushed : List Duty} {c received : Nat} {z : Thread}

/-! ## Pulses -/

/-- How long a session lasts without a drain, and when it was drained last. -/
structure Pulse where
  patience : Int
  lastActivity : Int
  deriving DecidableEq

namespace Pulse

/-- The session is drained. -/
def touch (p : Pulse) (now : Int) : Pulse := { p with lastActivity := now }

/-- The session was without a drain for too long. -/
def late (p : Pulse) (now : Int) : Bool := 0 < p.patience && p.patience < now - p.lastActivity

theorem late_mono {p : Pulse} {now later : Int} (h : p.late now = true) (hle : now ≤ later) :
    p.late later = true := by
  simp only [late, Bool.and_eq_true, decide_eq_true_eq] at h ⊢
  omega

theorem late_of_le {p : Pulse} {now : Int} (h : now - p.lastActivity ≤ p.patience) : p.late now = false := by
  simp only [late, Bool.and_eq_false_iff, decide_eq_false_iff_not]
  omega

theorem late_touch (p : Pulse) (now : Int) : (p.touch now).late now = false := by
  cases h : (p.touch now).late now with
  | false => rfl
  | true =>
    have hactivity : (p.touch now).lastActivity = now := rfl
    rw [late, Bool.and_eq_true, decide_eq_true_eq, decide_eq_true_eq] at h
    omega

end Pulse

def Conn.pulse (x : Conn) : Pulse := ⟨x.queue.patience, x.queue.lastActivity⟩

namespace World

def pulses (w : World) : List Pulse := w.conns.map Conn.pulse

theorem getElem?_pulses (w : World) (c : Nat) : w.pulses[c]? = (w.conn? c).map Conn.pulse := by
  rw [pulses, List.getElem?_map]
  rfl

/-- A connection changes, but not in its pulse. -/
theorem pulses_updateConn (w : World) (c : Nat) {f : Conn → Conn}
    (hf : ∀ y, w.conn? c = some y → (f y).pulse = y.pulse) : (w.updateConn c f).pulses = w.pulses := by
  refine List.ext_getElem? fun d => ?_
  rw [getElem?_pulses, conn?_updateConn, getElem?_pulses]
  by_cases hd : d = c
  · subst hd
    cases hy : w.conn? d with
    | none => simp
    | some y => simp [hf y hy]
  · rw [if_neg hd]

/-- The session of a connection is closed, or was without a drain for too long. -/
def lapsed (w : World) (c : Nat) : Bool := (w.conn? c).any fun y => y.queue.expired w.now

/-- The session of a connection is closed. -/
def shut (w : World) (c : Nat) : Bool := w.faces[c]?.any Face.closed

theorem lapsed_eq (w : World) (c : Nat) :
    w.lapsed c = (w.shut c || w.pulses[c]?.any fun p => p.late w.now) := by
  rw [lapsed, shut, getElem?_faces, getElem?_pulses]
  cases w.conn? c <;> rfl

theorem lapsed_mono {w : World} {c : Nat} {now later : Int} (hle : now ≤ later)
    (h : (w.shut c || w.pulses[c]?.any fun p => p.late now) = true) :
    (w.shut c || w.pulses[c]?.any fun p => p.late later) = true := by
  rw [Bool.or_eq_true] at h ⊢
  refine h.imp_right fun hlate => ?_
  rw [Option.any_eq_true] at hlate ⊢
  obtain ⟨p, hp, hlate⟩ := hlate
  exact ⟨p, hp, Pulse.late_mono hlate hle⟩

/-- Clock, settings and pulses stay as they are. -/
structure Timeless (w v : World) : Prop where
  settings : v.settings = w.settings
  now : v.now = w.now
  pulses : v.pulses = w.pulses

namespace Timeless

variable {w v u : World}

theorem refl (w : World) : w.Timeless w := ⟨rfl, rfl, rfl⟩

theorem trans (h : w.Timeless v) (k : v.Timeless u) : w.Timeless u :=
  ⟨k.settings.trans h.settings, k.now.trans h.now, k.pulses.trans h.pulses⟩

theorem note (w : World) (n : Note) : w.Timeless (w.note n) := ⟨rfl, rfl, rfl⟩

theorem updateThread (w : World) (t : Nat) (f : Thread → Thread) : w.Timeless (w.updateThread t f) :=
  ⟨rfl, rfl, rfl⟩

theorem updateConn (w : World) (c : Nat) {f : Conn → Conn}
    (hf : ∀ y, w.conn? c = some y → (f y).pulse = y.pulse) : w.Timeless (w.updateConn c f) :=
  ⟨rfl, rfl, pulses_updateConn w c hf⟩

theorem sendTo (w : World) (c : Nat) (text : String) : w.Timeless (w.sendTo c text).1 := by
  unfold World.sendTo
  split
  · exact refl w
  next y hy =>
    split
    · apply updateConn
      intro x hx
      obtain rfl := Option.some.inj (hx.symm.trans hy)
      rcases x.queue.write_cases text with ⟨f, hf⟩ | hf
      · simp only [hf]
      · simp only [Conn.pulse, hf]
    · exact note w _

theorem written {message : Option (Nat × String)} {call : Option Note} (h : w.Written message call v) :
    w.Timeless v := by
  induction h with
  | refl => exact refl w
  | sent c text => exact sendTo w c text
  | called n => exact note w n
  | note _ _ ih => exact ih.trans (note _ _)

end Timeless

end World

/-! ## What a duty plans -/

/-- The connections that a duty is to close. -/
def Duty.dooms : Duty → List Nat
  | .close c => [c]
  | .expire cs => cs
  | _ => []

/-- The connection that a duty of thread `x` asks to close, other than for being expired. -/
def Duty.asks? (x : Thread) : Duty → Option Nat
  | .act _ c _ .close => some c
  | .shutdown (c :: _) => if x.cancelled then none else some c
  | _ => none

/-- The duty waits for messages. -/
def Duty.isWait : Duty → Bool
  | .wait _ _ _ => true
  | _ => false

/-- The duty neither waits for messages nor is to close a connection. -/
def Duty.plain : Duty → Bool
  | .wait _ _ _ => false
  | .close _ => false
  | .expire _ => false
  | _ => true

namespace World

/-- What becomes of the pulse of connection `c` when duty `d` leads from `w` to `v`. -/
inductive Feels (w v : World) (d : Duty) (c : Nat) : Prop
  | keeps (h : v.pulses[c]? = w.pulses[c]?)
  | drained (hd : d.takesFrom? = some c) (h : v.pulses[c]? = w.pulses[c]?.map fun p => p.touch w.now)
  | begins (hnone : w.pulses[c]? = none) (h : v.pulses[c]? = some ⟨w.settings.sessionTimeout, w.now⟩)

/-- Duty `d` of thread `x`, which leads from `w` to `v`, plans `e`: it is to close what `d` was to close or
asks to close, and if it waits so did `d`, or `d` has drained the session just now. -/
structure Planned (w v : World) (x : Thread) (d e : Duty) : Prop where
  dooms : ∀ c ∈ e.dooms, c ∈ d.dooms ∨ d.asks? x = some c
  waits : ∀ c received deadline, e = .wait c received deadline → d = e ∨
    d = .take c received ∧ deadline = w.now + w.settings.pollTimeout ∧
      ∃ p, v.pulses[c]? = some p ∧ p.lastActivity = w.now

/-- Closing what the duty was to close, or asks to close. -/
theorem Planned.of_dooms {w v : World} {x : Thread} {d : Duty} (hwait : e.isWait = false)
    (h : ∀ c ∈ e.dooms, c ∈ d.dooms ∨ d.asks? x = some c) : w.Planned v x d e := by
  refine ⟨h, ?_⟩
  rintro c received deadline rfl
  cases hwait

theorem Planned.of_plain {w v : World} {x : Thread} {d : Duty} (h : e.plain = true) : w.Planned v x d e := by
  cases e with
  | wait | close | expire => cases h
  | _ => exact .of_dooms rfl (by simp [Duty.dooms])

/-- What a step of thread `t` does, as `x`, whose first duty is `d`. -/
structure Beats (w : World) (t : Nat) (x : Thread) (d : Duty) (rest : List Duty) (v : World) : Prop where
  settings : v.settings = w.settings
  now : v.now = w.now
  feels : ∀ c, w.Feels v d c
  agenda : ∀ e ∈ v.agenda t, e ∈ rest ∨ w.Planned v x d e

variable {w v : World} {t : Nat} {x : Thread} {d : Duty} {rest : List Duty}

/-- Only an act, a shutdown and a search for expired sessions have connections closed. -/
theorem planned_of_plan (h : d.Plan (w.pop t rest) x pushed) (he : e ∈ pushed) : w.Planned v x d e := by
  cases h with
  | reacts | script | branches =>
    obtain ⟨_, -, rfl⟩ := List.mem_map.1 he
    exact .of_plain rfl
  | relays | broadcasts | others =>
    rw [List.mem_singleton.1 he]
    exact .of_plain rfl
  | tells | admits =>
    simp only [List.mem_cons, List.not_mem_nil, or_false] at he
    rcases he with rfl | rfl | rfl | rfl <;> exact .of_plain rfl
  | closes number c data =>
    rw [List.mem_singleton.1 he]
    exact .of_dooms rfl (by simp [Duty.dooms, Duty.asks?])
  | shutsDown c more hcancelled =>
    simp only [List.mem_cons, List.not_mem_nil, or_false] at he
    rcases he with rfl | rfl
    · exact .of_dooms rfl (by simp [Duty.dooms, Duty.asks?, hcancelled])
    · exact .of_plain rfl
  | skips c more =>
    rw [List.mem_singleton.1 he]
    exact .of_dooms rfl fun c' hc' => Or.inl (List.mem_cons_of_mem c hc')
  | expires c more =>
    simp only [List.mem_cons, List.not_mem_nil, or_false] at he
    rcases he with rfl | rfl
    · exact .of_dooms rfl (by simp [Duty.dooms])
    · exact .of_dooms rfl fun c' hc' => Or.inl (List.mem_cons_of_mem c hc')

namespace Beats

/-- The duty has planned something. -/
theorem push (hv : (w.pop t rest).Timeless v) (hx : v.threads[t]? = some { x with agenda := rest })
    (hpushed : ∀ e ∈ pushed, w.Planned v x d e) : w.Beats t x d rest (v.push t pushed) where
  __ := hv
  feels c := .keeps (congrArg (·[c]?) hv.pulses)
  agenda e he := by
    rw [agenda_of_some (threads_push hx pushed)] at he
    rcases List.mem_append.1 he with he | he
    · exact Or.inr ⟨(hpushed e he).dooms, (hpushed e he).waits⟩
    · exact Or.inl he

/-- The duty has planned nothing. -/
theorem done (hv : (w.pop t rest).Timeless v) {y : Thread} (hy : v.threads[t]? = some y) (hrest : y.agenda = rest) :
    w.Beats t x d rest v where
  __ := hv
  feels c := .keeps (congrArg (·[c]?) hv.pulses)
  agenda e he := by
    rw [agenda_of_some hy, hrest] at he
    exact Or.inl he

end Beats

section Discharge

variable (hx : w.threads[t]? = some x)
include hx

/-- A session begins with a pulse. -/
theorem beats_opens {u : World} (hthreads : u.threads = (w.pop t rest).threads) (hsettings : u.settings = w.settings)
    (hnow : u.now = w.now) (hconns : u.conns = w.conns ++ [y])
    (hy : y.pulse = ⟨w.settings.sessionTimeout, w.now⟩) (hpushed : ∀ e ∈ pushed, e.plain = true) :
    w.Beats t x d rest (u.push t pushed) := by
  have hpulses : (u.push t pushed).pulses = w.pulses ++ [⟨w.settings.sessionTimeout, w.now⟩] := by
    show u.conns.map Conn.pulse = w.conns.map Conn.pulse ++ _
    rw [hconns, List.map_append, ← hy]
    rfl
  refine ⟨hsettings, hnow, ?_, ?_⟩
  · intro c
    by_cases hc : c = w.pulses.length
    · apply Feels.begins
      · exact List.getElem?_eq_none hc.ge
      · rw [hpulses, hc, List.getElem?_concat_length]
    · apply Feels.keeps
      rw [hpulses, getElem?_concat_of_ne hc]
  · intro e he
    rw [agenda_of_some (threads_push (by rw [hthreads, threads_pop hx]) pushed)] at he
    exact (List.mem_append.1 he).symm.imp_right fun he => .of_plain (hpushed e he)

/-- A take goes on, and may have drained its session. -/
theorem beats_taken (hy : w.conn? c = some y) {r : Poll.Queue × Poll.Take}
    (hd : d.Takes (w.pop t rest) x y.queue c received r) :
    w.Beats t x d rest
      (((w.pop t rest).updateConn c fun z => { z with queue := r.1 }).push t [.ofTake c received r.2]) := by
  obtain ⟨deadline, hr, hwaits⟩ : ∃ deadline, y.queue.Brings w.now deadline r ∧
      (d = .wait c received deadline ∨
        d = .take c received ∧ deadline = w.now + w.settings.pollTimeout ∧ r.1.lastActivity = w.now) := by
    cases hd with
    | starts =>
      exact ⟨_, y.queue.startTake_brings _ _ _, Or.inr ⟨rfl, rfl, y.queue.lastActivity_startTake _ _ _⟩⟩
    | resumes deadline => exact ⟨_, y.queue.resumeTake_brings _ _ _ _, Or.inl rfl⟩
  have hpulse : ∀ c', (w.updateConn c fun z => { z with queue := r.1 }).pulses[c']? =
      if c' = c then some ⟨y.queue.patience, r.1.lastActivity⟩ else w.pulses[c']? := by
    intro c'
    rw [getElem?_pulses, conn?_updateConn]
    by_cases hc : c' = c
    · rw [if_pos hc, if_pos hc, hc, hy, ← hr.patience]
      rfl
    · rw [if_neg hc, if_neg hc, getElem?_pulses]
  refine ⟨rfl, rfl, ?_, ?_⟩
  · intro c'
    by_cases hc : c' = c
    · have hw : w.pulses[c']? = some y.pulse := by rw [hc, getElem?_pulses, hy, Option.map_some]
      rcases hr.lastActivity with hsame | hnow
      · refine .keeps ((hpulse c').trans ?_)
        rw [if_pos hc, hsame, hw]
        rfl
      · refine .drained (hc ▸ hd.takesFrom?) ((hpulse c').trans ?_)
        rw [if_pos hc, hnow, hw]
        rfl
    · exact .keeps ((hpulse c').trans (if_neg hc))
  · intro e he
    have hagenda : (((w.pop t rest).updateConn c fun z => { z with queue := r.1 }).push t
        [.ofTake c received r.2]).agenda t = .ofTake c received r.2 :: rest :=
      agenda_of_some (threads_push (threads_pop hx rest) _)
    rw [hagenda] at he
    rcases List.mem_cons.1 he with rfl | he
    · apply Or.inr
      cases htake : r.2 with
      | done messages => exact .of_plain rfl
      | waiting deadline' =>
        obtain rfl := hr.deadline deadline' htake
        refine ⟨by simp [Duty.ofTake, Duty.dooms], ?_⟩
        rintro c' received' deadline ⟨⟩
        refine hwaits.imp_right fun htake => ⟨htake.1, htake.2.1, ?_⟩
        exact ⟨_, (hpulse c).trans (if_pos rfl), htake.2.2⟩
    · exact Or.inl he

theorem beats_throw (value : Thrown) : w.Beats t x d rest ((w.pop t rest).throw t value) := by
  have hpulses : ((w.pop t rest).throw t value).pulses = w.pulses := by
    show (w.conns.map _).map Conn.pulse = w.conns.map Conn.pulse
    rw [List.map_map]
    apply List.map_congr_left
    intro y _
    by_cases hy : y.holder = some t <;> simp [Conn.pulse, hy]
  refine ⟨rfl, rfl, fun c => .keeps (congrArg (·[c]?) hpulses), fun e he => ?_⟩
  rw [agenda_of_some (threads_throw (threads_pop hx rest) value)] at he
  cases he

/-- A duty that has been taken off the agenda. -/
theorem Did.beats (h : (w.pop t rest).Did t x d v) : w.Beats t x d rest v := by
  have hpop := threads_pop hx rest
  cases h with
  | passes _ hv => exact .done (.written hv) (hv.thread hpop) rfl
  | plans hplan hv => exact .push (.written hv) (hv.thread hpop) fun e he => planned_of_plan hplan he
  | concludes _ hv outcome =>
    exact .done ((Timeless.written hv).trans (.updateThread _ t _)) (threads_updateThread_self (hv.thread hpop) _) rfl
  | refuses | greets | replies => exact .done ⟨rfl, rfl, rfl⟩ (threads_respond hpop _ _ _) rfl
  | @opens r =>
    have hplain : ∀ e ∈ [Duty.trigger "connect" w.conns.length "", .greet w.conns.length], e.plain = true := by
      simp [Duty.plain]
    refine beats_opens hx (y := w.newConn r) ?_ ?_ ?_ ?_ ?_ hplain
    all_goals rfl
  | locks c | unlocks c => exact .done (.updateConn _ c fun _ _ => rfl) hpop rfl
  | takes hy hd => exact beats_taken hx hy hd
  | @closes c =>
    apply Beats.push
    · exact ⟨rfl, rfl, pulses_updateConn w c fun _ _ => rfl⟩
    · exact hpop
    · intro e he
      rw [List.mem_singleton.1 he]
      exact .of_plain rfl
  | registers => exact .done ⟨rfl, rfl, rfl⟩ hpop rfl
  | throws number c data value => exact beats_throw hx value

end Discharge

/-- Every step of a thread is one of these. -/
theorem Next.beats (hx : w.Next t x d rest) :
    w.Beats t x d rest (w.stepThread t) := by
  rw [hx.step_eq]
  exact ((w.pop t rest).did_discharge t x d).beats hx.thread

/-- A take has an answer next, or waits for its deadline. -/
theorem mem_ofTake {q : Poll.Queue} {now : Int} {r : Poll.Queue × Poll.Take} (h : q.Brings now deadline r)
    (rest : List Duty) : .wait c received deadline ∈ .ofTake c received r.2 :: rest ∨
      ∃ result, .reply c received result ∈ .ofTake c received r.2 :: rest := by
  cases hresult : r.2 with
  | done result => exact Or.inr ⟨result, List.mem_cons_self⟩
  | waiting deadline' =>
    rw [h.deadline _ hresult]
    exact Or.inl List.mem_cons_self

/-- A take is answered or waits. -/
theorem Next.taken (hx : w.Next t x d rest) (hy : w.conn? c = some y) {r : Poll.Queue × Poll.Take}
    (hd : d.Takes w x y.queue c received r) :
    (w.stepThread t).agenda t = .ofTake c received r.2 :: rest ∧
      (w.stepThread t).conn? c = some { y with queue := r.1 } := by
  rw [hx.step_of_takes hy hd]
  constructor
  · exact agenda_of_some (threads_taken (threads_pop hx.thread rest) c received _)
  · have hconn : ((w.pop t rest).updateConn c fun z => { z with queue := r.1 }).conn? c =
        some { y with queue := r.1 } := by
      rw [conn?_updateConn, if_pos rfl, show (w.pop t rest).conn? c = some y from hy, Option.map_some]
    rw [taken_eq]
    exact hconn

/-! ## Sessions that have lapsed -/

variable (h : w.Does t x d rest z v)
include h

/-- What is closed stays closed. -/
theorem Does.shut_after (hc : w.shut c = true) : v.shut c = true := by
  have halters := h.alters c
  rw [shut] at hc ⊢
  generalize w.faces[c]? = f at halters hc
  generalize v.faces[c]? = g at halters ⊢
  cases halters with
  | opened => cases hc
  | closed => rfl
  | released =>
    rw [Face.release]
    split <;> exact hc
  | _ => exact hc

/-- Only closing closes. -/
theorem Does.shut_before (hc : v.shut c = true) : w.shut c = true ∨ d = .close c := by
  have halters := h.alters c
  rw [shut] at hc ⊢
  generalize w.faces[c]? = f at halters ⊢
  generalize v.faces[c]? = g at halters hc
  cases halters with
  | opened => cases hc
  | closed hd => exact Or.inr hd
  | released =>
    rw [Face.release] at hc
    split at hc <;> exact Or.inl hc
  | _ => exact Or.inl hc

/-- A session that has lapsed stays so, unless it is drained. -/
theorem lapsed_after (hbeats : w.Beats t x d rest v) (hc : w.lapsed c = true)
    (hd : d.takesFrom? ≠ some c) : v.lapsed c = true := by
  rw [lapsed_eq, Bool.or_eq_true] at hc ⊢
  rcases hc with hshut | hlate
  · exact Or.inl (h.shut_after hshut)
  · apply Or.inr
    rw [hbeats.now]
    cases hbeats.feels c with
    | keeps hkeeps => rwa [hkeeps]
    | drained hd' => exact absurd hd' hd
    | begins hnone =>
      rw [hnone] at hlate
      cases hlate

/-- A session that has not lapsed does not do so by a step, unless it is closed. -/
theorem not_lapsed_after (hbeats : w.Beats t x d rest v) (hc : w.lapsed c = false)
    (hd : d ≠ .close c) : v.lapsed c = false := by
  rw [lapsed_eq, Bool.or_eq_false_iff] at hc ⊢
  obtain ⟨hshut, hlate⟩ := hc
  constructor
  · rw [Bool.eq_false_iff]
    intro hclosed
    rcases h.shut_before hclosed with hbefore | hcloses
    · cases hshut.symm.trans hbefore
    · exact hd hcloses
  · rw [hbeats.now]
    cases hbeats.feels c with
    | keeps hkeeps => rwa [hkeeps]
    | drained _ hdrained =>
      rw [hdrained]
      cases w.pulses[c]? with
      | none => rfl
      | some p => exact p.late_touch w.now
    | begins _ hbegins =>
      rw [hbegins]
      exact Pulse.late_touch ⟨w.settings.sessionTimeout, 0⟩ w.now

end World

end PollSocket.Server
