import PollSocket.Proofs.Server.Refusals
import PollSocket.Proofs.Server.Serial

set_option autoImplicit false

/-!
# Servers that echo

The handlers of an echo server send every message back to where it came from, and nobody else sends or closes
anything. So what a thread is to do fits its request (`Duty.Fits`): a drain works on the session that it names,
and what belongs to handshakes and sweeps works on no session at all, but for closing it. A step changes no
connection but the one that its duty reaches (`World.echoStep`).

A message is echoed before the next one of its session is told, since the drain that has it holds the session.
So what a session has accepted, in this order, is among what its drains told the handlers (`History.Echoes`).
-/

namespace PollSocket.Server

variable {d : Duty} {h : History} {moves : List Move} {c t : Nat} {o : Option Request}
  {config : ServerConfig} {m : String} {x : Thread} {w : World}

/-- The handlers of a server that echoes. -/
def echoHandlers : List Handler :=
  [⟨"connect", .welcome⟩, ⟨"disconnect", .farewell⟩, ⟨"message", .echo⟩]

/-- The move is one of clients, of the clock or of the server itself. The program that runs an echo server makes
no others, unless it shuts the server down. -/
def Move.serves : Move → Bool
  | .step _ => true
  | .request _ => true
  | .sweep => true
  | .cancel _ => true
  | .sever _ => true
  | .prefer _ _ => true
  | .clock _ => true
  | _ => false

namespace Duty

/-- The message that a duty echoes, and the connection that it goes to. -/
def echo? : Duty → Option (Nat × String)
  | .react _ .echo c data => some (c, data)
  | _ => none

/-- The connection whose session or queue a duty works on. -/
def touches? : Duty → Option Nat
  | .react _ .echo c _ => some c
  | d => d.session?

/-- The connection that a duty may change. -/
def reaches? : Duty → Option Nat
  | .close c => some c
  | d => d.touches?

/-- The duty belongs to a handshake or to a sweep. -/
def aloof : Duty → Bool
  | .trigger event _ _ => event != "message"
  | .react _ .welcome _ _ => true
  | .react _ .farewell _ _ => true
  | .greet _ => true
  | .close _ => true
  | .expire _ => true
  | _ => false

theorem echo?_eq_some (h : d.echo? = some (c, m)) : ∃ event, d = .react event .echo c m := by
  unfold echo? at h
  split at h
  next event c' data =>
    cases h
    exact ⟨event, rfl⟩
  next => cases h

/-- What a duty that works on a session is. -/
theorem touches?_eq_some (h : d.touches? = some c) :
    (∃ event m, d = .react event .echo c m) ∨ d.session? = some c := by
  unfold touches? at h
  split at h
  next event c' m =>
    cases h
    exact Or.inl ⟨event, m, rfl⟩
  next => exact Or.inr h

theorem touches?_of_session? (h : d.session? = some c) : d.touches? = some c := by
  cases d with
  | react => cases h
  | trigger | lock | deliver | take | wait | reply | unlock => exact h
  | _ => cases h

theorem touches?_of_aloof (h : d.aloof = true) : d.touches? = none := by
  cases d with
  | trigger event c data =>
    have hevent : ¬ event = "message" := by simpa [aloof] using h
    exact if_neg hevent
  | react event reaction c data =>
    cases reaction with
    | welcome | farewell => rfl
    | script | echo | relay => cases h
  | greet | close | expire => rfl
  | _ => cases h

/-- What a thread of an echo server is to do, by the request that it serves. -/
inductive Fits (w : World) : Option Request → Duty → Prop
  | serves (r : Request) : Fits w (some r) (.serve r)
  | drains {r : Request} {d : Duty} {c : Nat} (hdrains : r.opens = false) (hc : d.touches? = some c)
    (hid : w.idOf? c = some (r.header.get sessionField)) : Fits w (some r) d
  | aside {o : Option Request} {d : Duty} (ho : ∀ r, o = some r → r.opens = true) (hd : d.aloof = true) : Fits w o d

theorem Fits.mono {v : World} (h : Fits w o d) (hids : ∀ c id, w.idOf? c = some id → v.idOf? c = some id) :
    Fits v o d := by
  cases h with
  | serves r => exact .serves r
  | drains hdrains hc hid => exact .drains hdrains hc (hids _ _ hid)
  | aside ho hd => exact .aside ho hd

theorem Fits.absurd (h : Fits w o d) (hserve : ∀ r, d ≠ .serve r) (htouches : d.touches? = none)
    (haloof : d.aloof = false) : False := by
  cases h with
  | serves r => exact hserve r rfl
  | drains _ hc =>
    cases htouches.symm.trans hc
  | aside _ hd =>
    cases haloof.symm.trans hd

end Duty

namespace World

/-! ## One step -/

/-- From `w` to `v` no handler and no connection changes, but for the connection `o`. -/
structure Spares (w v : World) (o : Option Nat) : Prop where
  handlers : v.handlers = w.handlers
  conns : ∀ c y, o ≠ some c → w.conn? c = some y → v.conn? c = some y

namespace Spares

variable {v u : World} {o : Option Nat}

theorem of_same (hhandlers : v.handlers = w.handlers) (hconns : v.conns = w.conns) : w.Spares v o where
  handlers := hhandlers
  conns c y _ hy := by rwa [conn?, hconns]

theorem trans (h : w.Spares v o) (k : v.Spares u o) : w.Spares u o where
  handlers := k.handlers.trans h.handlers
  conns c y ho hy := k.conns c y ho (h.conns c y ho hy)

theorem note (w : World) (n : Note) : w.Spares (w.note n) o := of_same rfl rfl

theorem updateThread (w : World) (t : Nat) (f : Thread → Thread) : w.Spares (w.updateThread t f) o :=
  of_same rfl rfl

theorem updateConn (w : World) (c : Nat) (f : Conn → Conn) : w.Spares (w.updateConn c f) (some c) where
  handlers := rfl
  conns d y hd hy := by
    rw [conn?_updateConn, if_neg, hy]
    rintro rfl
    exact hd rfl

theorem sendTo (w : World) (c : Nat) (text : String) : w.Spares (w.sendTo c text).1 (some c) := by
  unfold World.sendTo
  split
  · exact of_same rfl rfl
  · split
    · exact updateConn w c _
    · exact note w _

/-- Nothing is sent but an echo. -/
theorem written {call : Option Note} (h : w.Written d.echo? call v) : w.Spares v d.reaches? := by
  generalize hmessage : d.echo? = message at h
  induction h with
  | refl | called => exact of_same rfl rfl
  | sent c text =>
    obtain ⟨event, rfl⟩ := Duty.echo?_eq_some hmessage
    exact sendTo w c text
  | note _ _ ih => exact (ih hmessage).trans (note _ _)

end Spares

/-- What a step of thread `t`, which serves `o`, does in an echo server when the duty is `d`: it changes no
connection but the one that the duty reaches, and what it plans fits the request. A message is echoed once
its handlers were told, and nothing else is planned then. -/
structure EchoStep (w : World) (t : Nat) (o : Option Request) (d : Duty) (rest : List Duty) (v : World) : Prop where
  spares : w.Spares v d.reaches?
  agenda : ∃ duties, v.agenda t = duties ++ rest ∧ (∀ e ∈ duties, e.Fits w o) ∧
    ((∀ e ∈ duties, e.echo? = none) ∨ ∃ c m, d = .trigger "message" c m ∧ duties = [.react "message" .echo c m])

variable {v : World} {rest : List Duty}

/-- The duty has planned something that echoes nothing. -/
theorem EchoStep.push (hspares : (w.pop t rest).Spares v d.reaches?)
    (hv : v.threads[t]? = some { x with agenda := rest })
    {pushed : List Duty} (hfits : ∀ e ∈ pushed, e.Fits w o) (hecho : ∀ e ∈ pushed, e.echo? = none) :
    w.EchoStep t o d rest (v.push t pushed) where
  spares := ⟨hspares.handlers, hspares.conns⟩
  agenda := ⟨pushed, by rw [agenda_of_some (threads_push hv pushed)], hfits, Or.inl hecho⟩

/-- The duty has planned nothing. -/
theorem EchoStep.done (hspares : (w.pop t rest).Spares v d.reaches?) {y : Thread} (hv : v.threads[t]? = some y)
    (hagenda : y.agenda = rest) : w.EchoStep t o d rest v where
  spares := ⟨hspares.handlers, hspares.conns⟩
  agenda := ⟨[], by rw [agenda_of_some hv, hagenda]; rfl, by simp, Or.inl (by simp)⟩

/-- An echo server sends nothing but echoes. -/
theorem sends?_of_fits (hfits : d.Fits w o) : v.sends? d = d.echo? := by
  cases hfits with
  | serves r => rfl
  | drains _ hc =>
    rcases Duty.touches?_eq_some hc with ⟨event, m, rfl⟩ | hsession
    · rfl
    · cases d with
      | trigger | lock | deliver | take | wait | reply | unlock => rfl
      | _ => cases hsession
  | aside _ hd =>
    cases d with
    | react event reaction c data =>
      cases reaction with
      | welcome | farewell => rfl
      | script | echo | relay => cases hd
    | trigger | greet | close | expire => rfl
    | _ => cases hd

variable (hhandlers : w.handlers = echoHandlers)
include hhandlers

/-- What a duty plans fits the request, and nothing of it echoes a message, unless handlers are told of one. -/
theorem fits_of_plan (htabled : w.Tabled) (hfits : d.Fits w o)
    {pushed : List Duty} (hplan : d.Plan (w.pop t rest) x pushed) : (∀ e ∈ pushed, e.Fits w o) ∧
      ((∀ e ∈ pushed, e.echo? = none) ∨
        ∃ c m, d = .trigger "message" c m ∧ pushed = [.react "message" .echo c m]) := by
  cases hplan with
  | reacts event c data =>
    rw [show (w.pop t rest).handlers = echoHandlers from hhandlers]
    cases hfits with
    | drains hdrains hc hid =>
      have hevent : event = "message" := by
        by_contra hevent
        have hnone : (Duty.trigger event c data).touches? = none := if_neg hevent
        cases hnone.symm.trans hc
      subst hevent
      refine ⟨fun e he => ?_, Or.inr ⟨c, data, rfl, rfl⟩⟩
      rw [List.mem_singleton.1 he]
      exact .drains hdrains hc hid
    | aside ho hd =>
      have hevent : ¬ event = "message" := by simpa [Duty.aloof] using hd
      have hreact : ∀ e ∈ (echoHandlers.filter fun h => h.event == event).map
          fun h => Duty.react event h.reaction c data, e.aloof = true ∧ e.echo? = none := by
        intro e he
        obtain ⟨h, hh, rfl⟩ := List.mem_map.1 he
        rw [List.mem_filter] at hh
        simp only [echoHandlers, List.mem_cons, List.not_mem_nil, or_false] at hh
        obtain ⟨rfl | rfl | rfl, hsame⟩ := hh
        · exact ⟨rfl, rfl⟩
        · exact ⟨rfl, rfl⟩
        · exact absurd (beq_iff_eq.1 hsame).symm hevent
      exact ⟨fun e he => .aside ho (hreact e he).1, Or.inl fun e he => (hreact e he).2⟩
  | tells c m more =>
    refine ⟨fun e he => ?_, Or.inl (by simp [Duty.echo?])⟩
    cases hfits with
    | aside _ hd => cases hd
    | drains hdrains hc hid =>
      simp only [List.mem_cons, List.not_mem_nil, or_false] at he
      rcases he with rfl | rfl <;> exact .drains hdrains hc hid
  | @admits r c q hdrains hlive =>
    refine ⟨fun e he => ?_, Or.inl (by simp [Duty.echo?])⟩
    have htouches : e.touches? = some c := by
      simp only [List.mem_cons, List.not_mem_nil, or_false] at he
      rcases he with rfl | rfl | rfl | rfl <;> rfl
    cases hfits with
    | serves => exact .drains hdrains htouches (htabled.sessions _ c (lookup_of_liveSession? hlive))
    | drains _ hc => cases hc
    | aside _ hd => cases hd
  | skips c more | expires c more =>
    refine ⟨fun e he => ?_, Or.inl (by simp [Duty.echo?])⟩
    cases hfits with
    | drains _ hc => cases hc
    | aside ho _ =>
      simp only [List.mem_cons, List.not_mem_nil, or_false] at he
      rcases he with rfl | rfl <;> exact .aside ho rfl
  | _ => exact (hfits.absurd nofun rfl rfl).elim

/-- A duty that has been taken off the agenda. -/
theorem Did.echoStep (htabled : w.Tabled) (hx : w.threads[t]? = some x) (hfits : d.Fits w o)
    (h : (w.pop t rest).Did t x d v) : w.EchoStep t o d rest v := by
  replace hx := threads_pop hx rest
  have hsends := sends?_of_fits (v := w.pop t rest) hfits
  cases h with
  | passes _ hv => exact .done (.written (hsends ▸ hv)) (hv.thread hx) rfl
  | plans hplan hv =>
    obtain ⟨hplanned, hecho⟩ := fits_of_plan hhandlers htabled hfits hplan
    have hspares := Spares.written (hsends ▸ hv)
    refine ⟨⟨hspares.handlers, hspares.conns⟩, _, ?_, hplanned, hecho⟩
    rw [agenda_of_some (threads_push (hv.thread hx) _)]
  | concludes hd =>
    cases d with
    | send | shutdown => exact (hfits.absurd nofun rfl rfl).elim
    | _ => cases hd
  | refuses | greets | replies => exact .done (.of_same rfl rfl) (threads_respond hx _ _ _) rfl
  | @opens r hopens =>
    apply EchoStep.push
    · exact ⟨rfl, fun c y _ hy => (List.getElem?_append_left (List.getElem?_eq_some_iff.1 hy).1).trans hy⟩
    · exact hx
    · intro e he
      have haloof : e.aloof = true := by
        simp only [List.mem_cons, List.not_mem_nil, or_false] at he
        rcases he with rfl | rfl <;> rfl
      cases hfits with
      | serves => exact .aside (fun r' hr' => by cases hr'; exact hopens) haloof
      | drains _ hc => cases hc
      | aside _ hd => cases hd
    · simp [Duty.echo?]
  | locks c | unlocks c => exact .done (.updateConn _ c _) hx rfl
  | @takes _ c received y r _ htakes =>
    apply EchoStep.push
    · cases htakes <;> exact .updateConn _ c _
    · exact hx
    · intro e he
      rw [List.mem_singleton.1 he]
      have htouches : (Duty.ofTake c received r.2).touches? = some c := by cases r.2 <;> rfl
      cases htakes <;> cases hfits with
      | aside _ hd => cases hd
      | drains hdrains hc hid => exact .drains hdrains (htouches.trans hc) hid
    · intro e he
      rw [List.mem_singleton.1 he]
      cases r.2 <;> rfl
  | @closes c =>
    apply EchoStep.push
    · exact (Spares.updateConn _ c _).trans (.of_same rfl rfl)
    · exact hx
    · intro e he
      rw [List.mem_singleton.1 he]
      cases hfits with
      | drains _ hc => cases hc
      | aside ho _ => exact .aside ho rfl
    · simp [Duty.echo?]
  | registers | throws => exact (hfits.absurd nofun rfl rfl).elim

/-- Every step of an echo server does what fits the request of its thread. -/
theorem echoStep (htabled : w.Tabled) (hx : w.Next t x d rest) (hfits : d.Fits w o) :
    w.EchoStep t o d rest (w.stepThread t) := by
  rw [hx.step_eq]
  exact ((w.pop t rest).did_discharge t x d).echoStep hhandlers htabled hx.thread hfits

end World

/-! ## Moves -/

namespace History

/-- What a move that is no step leaves as it is: books, connections, tables, handlers and threads. It may start a
thread that serves a request or sweeps. -/
structure Rests (h k : History) (m : Move) : Prop where
  told : k.told = h.told
  accepted : k.accepted = h.accepted
  handlers : k.world.handlers = h.world.handlers
  settings : k.world.settings = h.world.settings
  now : h.world.now ≤ k.world.now
  conns : k.world.conns = h.world.conns
  sessions : k.world.sessions = h.world.sessions
  online : k.world.online = h.world.online
  threads : ∀ t, (k.origins[t]? = h.origins[t]? ∧ k.world.agenda t = h.world.agenda t) ∨
    t = h.origins.length ∧ ∃ o d, k.origins = h.origins ++ [o] ∧ k.world.agenda t = [d] ∧
      ((∃ r, m = .request r ∧ o = some r ∧ d = .serve r) ∨ o = none ∧ d = .expire h.world.expiredConns)

theorem rests_after (haligned : h.origins.length = h.world.threads.length) {m : Move} (hm : m.serves = true)
    (hnostep : ∀ t, m ≠ .step t) : h.Rests (h.after m) m := by
  -- a thread is started
  have hspawn : ∀ (o : Option Request) (d : Duty) (t : Nat),
      ((h.origins ++ [o])[t]? = h.origins[t]? ∧ (h.spawn [d] o).world.agenda t = h.world.agenda t) ∨
        t = h.origins.length ∧ (h.spawn [d] o).world.agenda t = [d] := by
    intro o d t
    rw [haligned]
    refine (World.agenda_spawn (v := (h.spawn [d] o).world) rfl t).imp ?_ fun hnew => ⟨hnew.1, hnew.2.2⟩
    exact fun hold => ⟨getElem?_concat_of_ne (haligned ▸ hold.1), hold.2⟩
  cases m with
  | step t => exact absurd rfl (hnostep t)
  | request r =>
    refine ⟨rfl, rfl, rfl, rfl, le_refl _, rfl, rfl, rfl, fun t => (hspawn (some r) (.serve r) t).imp_right ?_⟩
    rintro ⟨ht, hnew⟩
    exact ⟨ht, some r, .serve r, rfl, hnew, Or.inl ⟨r, rfl, rfl, rfl⟩⟩
  | sweep =>
    refine ⟨rfl, rfl, rfl, rfl, le_refl _, rfl, rfl, rfl,
      fun t => (hspawn none (.expire h.world.expiredConns) t).imp_right ?_⟩
    rintro ⟨ht, hnew⟩
    exact ⟨ht, none, .expire h.world.expiredConns, rfl, hnew, Or.inr ⟨rfl, rfl⟩⟩
  | cancel t | sever t | prefer t =>
    exact ⟨rfl, rfl, rfl, rfl, le_refl _, rfl, rfl, rfl, fun u => Or.inl ⟨rfl, World.agenda_flag t u fun _ => rfl⟩⟩
  | clock now => exact ⟨rfl, rfl, rfl, rfl, le_max_left _ _, rfl, rfl, rfl, fun _ => Or.inl ⟨rfl, rfl⟩⟩
  | _ => cases hm

/-- What holds of an echo server after every move of its clients, of the clock and of its own. -/
structure Echoes (h : History) : Prop where
  sound : Sound h.toBooks h.world
  paired : h.world.Paired
  held : h.world.Held
  handlers : h.world.handlers = echoHandlers
  fits : ∀ t o, h.origins[t]? = some o → ∀ d ∈ h.world.agenda t, d.Fits h.world o
  /-- A message that is to be echoed is echoed before all else. -/
  single : ∀ t d rest, h.world.agenda t = d :: rest → ∀ e ∈ rest, e.echo? = none
  /-- Messages are accepted in the order in which they are told. -/
  echoed : ∀ c, (h.acceptedBy c).Sublist (h.toldFor c)
  /-- A message that is to be echoed was told last, by the drain that holds the session. -/
  echoing : ∀ t d rest c m, h.world.agenda t = d :: rest → d.echo? = some (c, m) →
    .unlock c ∈ rest ∧ ∃ told, h.toldFor c = told ++ [m] ∧ (h.acceptedBy c).Sublist told

namespace Echoes

variable (hh : h.Echoes)
include hh

/-- A thread that is to echo a message holds the session that it goes to. -/
theorem heldBy {rest : List Duty} (hagenda : h.world.agenda t = d :: rest)
    (hd : d.echo? = some (c, m)) : h.world.HeldBy c t := by
  obtain ⟨hunlock, -⟩ := hh.echoing t d rest c m hagenda hd
  obtain ⟨x, hx⟩ := World.next_of_agenda hagenda
  refine hh.held t x c hx.thread ⟨by rw [hx.agenda]; exact List.mem_cons_of_mem d hunlock, ?_⟩
  rw [hx.agenda]
  rintro ⟨⟩
  cases hd

/-- A move that is no step. -/
theorem rest {m : Move} (hm : m.serves = true) (hnostep : ∀ t, m ≠ .step t) : (h.after m).Echoes := by
  have hrests := rests_after hh.sound.aligned hm hnostep
  have hsound := hh.sound.after m
  have hpaired := hh.paired.after m
  have hheld := held_after hh.sound hh.held m
  generalize h.after m = k at hrests hsound hpaired hheld ⊢
  have hids : ∀ c id, h.world.idOf? c = some id → k.world.idOf? c = some id := fun c id hid => by
    rwa [World.idOf?_of_conns_eq hrests.conns]
  have htold : ∀ c, k.toldFor c = h.toldFor c := fun c => by rw [Books.toldFor, hrests.told, Books.toldFor]
  have haccepted : ∀ c, k.acceptedBy c = h.acceptedBy c := fun c => by
    rw [Books.acceptedBy, hrests.accepted, Books.acceptedBy]
  refine ⟨hsound, hpaired, hheld, hrests.handlers.trans hh.handlers, ?_, ?_, ?_, ?_⟩
  · intro t o ho d hd
    rcases hrests.threads t with ⟨hsame, hagenda⟩ | ⟨rfl, o', e, horigins, hagenda, hkind⟩
    · rw [hsame] at ho
      rw [hagenda] at hd
      exact (hh.fits t o ho d hd).mono hids
    · rw [horigins, List.getElem?_concat_length, Option.some.injEq] at ho
      rw [hagenda, List.mem_singleton] at hd
      rcases hkind with ⟨r, -, rfl, rfl⟩ | ⟨rfl, rfl⟩
      · rw [hd, ← ho]
        exact .serves r
      · rw [hd]
        exact .aside (fun r hr => by rw [← ho] at hr; cases hr) rfl
  · intro t d rest hd e he
    rcases hrests.threads t with ⟨-, hagenda⟩ | ⟨-, o', e', -, hagenda, -⟩
    · exact hh.single t d rest (hagenda ▸ hd) e he
    · cases hagenda.symm.trans hd
      cases he
  · intro c
    rw [htold, haccepted]
    exact hh.echoed c
  · intro t d rest c m' hd he
    rw [htold, haccepted]
    rcases hrests.threads t with ⟨-, hagenda⟩ | ⟨-, o', e', -, hagenda, hkind⟩
    · exact hh.echoing t d rest c m' (hagenda ▸ hd) he
    · cases hagenda.symm.trans hd
      rcases hkind with ⟨r, -, -, rfl⟩ | ⟨-, rfl⟩ <;> cases he

section

variable {rest : List Duty} (hready : h.world.ready t = true) (hx : h.world.Next t x d rest)
include hready hx

/-- What a step of a thread, whose first duty is `d`, leaves in the books. -/
theorem books_step :
    (h.after (.step t)).told = h.told ++ (d.tells?.map (Prod.mk t)).toList ∧
    (h.after (.step t)).accepted = h.accepted ++ (d.echo?.filter fun s => h.world.accepts s.1 s.2).toList := by
  obtain ⟨o, ho, -⟩ := hh.sound.courses t x hx.thread
  have hfits := hh.fits t o ho d hx.mem
  rw [← World.sends?_of_fits (v := h.world) hfits, after_step_eq hready hx]
  exact ⟨rfl, rfl⟩

/-- What a step has told and accepted for a connection. -/
theorem entries_step (c : Nat) :
    (h.after (.step t)).toldFor c = h.toldFor c ++ entriesOf c d.tells?.toList ∧
    (h.after (.step t)).acceptedBy c =
      h.acceptedBy c ++ entriesOf c (d.echo?.filter fun s => h.world.accepts s.1 s.2).toList := by
  obtain ⟨htold, haccepted⟩ := hh.books_step hready hx
  constructor
  · rw [Books.toldFor, htold, List.map_append, entriesOf_append]
    cases d.tells? <;> rfl
  · rw [Books.acceptedBy, haccepted, entriesOf_append, Books.acceptedBy]

omit hready in
/-- A thread that tells of a message of a session, or echoes one, holds the session. -/
theorem holds (hd : d.tells? = some (c, m) ∨ d.echo? = some (c, m)) :
    .unlock c ∈ rest ∧ x.Holds c := by
  rcases hd with htells | hecho
  · obtain ⟨o, -, hcourse⟩ := hh.sound.courses t x hx.thread
    obtain rfl := Duty.eq_of_tells? htells
    have hholds := hcourse.holds_of_session hx.agenda rfl rfl
    have hunlock := hholds.1
    rw [hx.agenda] at hunlock
    exact ⟨List.mem_of_ne_of_mem (by simp) hunlock, hholds⟩
  · obtain ⟨hunlock, -⟩ := hh.echoing t d rest c m hx.agenda_eq hecho
    obtain ⟨event, rfl⟩ := Duty.echo?_eq_some hecho
    exact ⟨hunlock, by rw [hx.agenda]; exact List.mem_cons_of_mem _ hunlock, by rw [hx.agenda]; simp⟩

/-- A step accepts what it echoes, if anything, and tells of a message after all before were echoed. -/
theorem echoed_step (c : Nat) :
    ((h.after (.step t)).acceptedBy c).Sublist ((h.after (.step t)).toldFor c) := by
  obtain ⟨htold, haccepted⟩ := hh.entries_step hready hx c
  rw [htold, haccepted]
  cases hecho : d.echo? with
  | none =>
    simp only [Option.filter_none, Option.toList_none, entriesOf_nil, List.append_nil]
    exact (hh.echoed c).trans (List.sublist_append_left _ _)
  | some s =>
    obtain ⟨c', m⟩ := s
    have hbefore : h.world.agenda t = d :: rest := hx.agenda_eq
    obtain ⟨-, told, htoldFor, hsublist⟩ := hh.echoing t d rest c' m hbefore hecho
    obtain ⟨event, rfl⟩ := Duty.echo?_eq_some hecho
    have htells : (Duty.react event .echo c' m).tells? = none := rfl
    rw [htells, Option.toList_none, entriesOf_nil, List.append_nil]
    by_cases hc : c' = c
    · subst hc
      rw [htoldFor]
      refine hsublist.append ?_
      rw [Option.filter_some]
      split
      · rw [Option.toList_some, entriesOf_singleton, if_pos rfl]
      · exact List.nil_sublist _
    · rw [Option.filter_some]
      have hnone : entriesOf c (if h.world.accepts c' m = true then some (c', m) else none).toList = [] := by
        split
        · rw [Option.toList_some, entriesOf_singleton, if_neg hc]
        · rfl
      rw [hnone, List.append_nil]
      exact hh.echoed c

/-- A connection for which a step neither tells of a message nor echoes one. -/
theorem entries_kept (hc : ∀ m, d.tells? ≠ some (c, m) ∧ d.echo? ≠ some (c, m)) :
    (h.after (.step t)).toldFor c = h.toldFor c ∧ (h.after (.step t)).acceptedBy c = h.acceptedBy c := by
  obtain ⟨htold, haccepted⟩ := hh.entries_step hready hx c
  -- no entry of the step is one of the connection
  have hnone : ∀ {o : Option (Nat × String)}, (∀ m, o ≠ some (c, m)) → entriesOf c o.toList = [] := by
    rintro (_ | ⟨c', m⟩) ho
    · rfl
    · rw [Option.toList_some, entriesOf_singleton, if_neg]
      rintro rfl
      exact ho m rfl
  constructor
  · rw [htold, hnone fun m => (hc m).1, List.append_nil]
  · rw [haccepted, hnone, List.append_nil]
    intro m hm
    exact (hc m).2 (Option.filter_eq_some_iff.1 hm).1

/-- A step of thread `t`, whose first duty is `d`. -/
theorem step : (h.after (.step t)).Echoes := by
  obtain ⟨o, ho, -⟩ := hh.sound.courses t x hx.thread
  have hworld := world_after_step hready
  have hfits := hh.fits t o ho d hx.mem
  obtain ⟨hspares, duties, hduties, hplanned, hecho⟩ := World.echoStep hh.handlers hh.sound.tabled hx hfits
  have hbefore : h.world.agenda t = d :: rest := hx.agenda_eq
  have hafter : (h.after (.step t)).world.agenda t = duties ++ rest := by rw [hworld, hduties]
  have hothers : ∀ u, u ≠ t → (h.after (.step t)).world.agenda u = h.world.agenda u := by
    intro u hu
    rw [hworld]
    exact hx.agenda_other hu
  have hids : ∀ c id, h.world.idOf? c = some id → (h.after (.step t)).world.idOf? c = some id :=
    fun _ _ hid => h.idOf?_after (.step t) hid
  have hrest := hh.single t d rest hbefore
  -- what the thread is to echo next it has just told of
  have hnext : ∀ e rest', duties ++ rest = e :: rest' →
      (∀ e' ∈ rest', e'.echo? = none) ∧ ∀ c m, e.echo? = some (c, m) → d.tells? = some (c, m) ∧ rest' = rest := by
    intro e rest' hlist
    rcases hecho with hnone | ⟨c', m', rfl, rfl⟩
    · have hall : ∀ f ∈ e :: rest', f.echo? = none := hlist ▸ List.forall_mem_append.2 ⟨hnone, hrest⟩
      refine ⟨fun e' he' => hall e' (List.mem_cons_of_mem e he'), fun c m hem => ?_⟩
      rw [hall e List.mem_cons_self] at hem
      cases hem
    · cases hlist
      refine ⟨hrest, fun c m hem => ?_⟩
      cases hem
      exact ⟨rfl, rfl⟩
  refine ⟨hh.sound.after _, hh.paired.after _, held_after hh.sound hh.held _, ?_, ?_, ?_,
    hh.echoed_step hready hx, ?_⟩
  case refine_1 => rw [hworld, hspares.handlers, hh.handlers]
  case refine_2 =>
    intro u o' ho' e he
    rw [origins_after_step] at ho'
    by_cases hu : u = t
    · subst hu
      cases ho.symm.trans ho'
      rw [hafter] at he
      rcases List.mem_append.1 he with he | he
      · exact (hplanned e he).mono hids
      · refine (hh.fits u o ho e ?_).mono hids
        rw [hbefore]
        exact List.mem_cons_of_mem d he
    · rw [hothers u hu] at he
      exact (hh.fits u o' ho' e he).mono hids
  case refine_3 =>
    intro u e rest' hu
    by_cases hut : u = t
    · subst hut
      exact (hnext e rest' (by rw [← hafter, hu])).1
    · rw [hothers u hut] at hu
      exact hh.single u e rest' hu
  case refine_4 =>
    intro u e rest' c m hu he
    by_cases hut : u = t
    · subst hut
      obtain ⟨htells, rfl⟩ := (hnext e rest' (by rw [← hafter, hu])).2 c m he
      refine ⟨(hh.holds hx (Or.inl htells)).1, h.toldFor c, ?_, ?_⟩
      · rw [(hh.entries_step hready hx c).1, htells, Option.toList_some, entriesOf_singleton, if_pos rfl]
      · obtain rfl := Duty.eq_of_tells? htells
        rw [(hh.entries_step hready hx c).2]
        simpa [Duty.echo?] using hh.echoed c
    · rw [hothers u hut] at hu
      -- the session is held by the thread that is to echo, so this step is about another one
      have hother : ∀ m', d.tells? ≠ some (c, m') ∧ d.echo? ≠ some (c, m') := by
        intro m'
        have hnot : ¬ x.Holds c := fun hholds => hut ((hh.heldBy hu he).unique (hh.held t x c hx.thread hholds))
        exact ⟨fun htells => hnot (hh.holds hx (Or.inl htells)).2,
          fun hechoes => hnot (hh.holds hx (Or.inr hechoes)).2⟩
      obtain ⟨htold, haccepted⟩ := hh.entries_kept hready hx hother
      rw [htold, haccepted]
      exact hh.echoing u e rest' c m hu he

end

theorem after {m : Move} (hm : m.serves = true) : (h.after m).Echoes := by
  by_cases hstep : ∃ t, m = .step t
  · obtain ⟨t, rfl⟩ := hstep
    cases hready : h.world.ready t with
    | true =>
      obtain ⟨x, d, rest, hx⟩ := World.agenda_of_ready hready
      exact hh.step hready hx
    | false =>
      have hsame : h.after (.step t) = h := by rw [History.after, if_neg (by simp [hready])]
      rwa [hsame]
  · exact hh.rest hm fun t heq => hstep ⟨t, heq⟩

theorem foldl (hmoves : ∀ m ∈ moves, m.serves = true) : (moves.foldl History.after h).Echoes := by
  induction moves generalizing h with
  | nil => exact hh
  | cons m more ih => exact ih (hh.after (hmoves m List.mem_cons_self)) (List.forall_mem_cons.1 hmoves).2

end Echoes

/-- The history of the server that a configuration describes, once it is set up. -/
def ofConfig (config : ServerConfig) (ids : Ids) : History := { world := .ofConfig config ids }

theorem Echoes.ofConfig (hecho : config.broadcast = false) (ids : Ids) : (ofConfig config ids).Echoes := by
  have hheld : (History.ofConfig config ids).world.Held := by
    intro t x c hx
    cases hx
  have htimely := Watch.timely_new config ids
  refine ⟨htimely.sound, htimely.paired, hheld, ?_, ?_, ?_, fun c => List.Sublist.refl _, ?_⟩
  · simp [History.ofConfig, World.ofConfig, World.withEcho, World.register, World.new, hecho, echoHandlers]
  · intro t o ho
    cases ho
  · intro t d rest hd
    cases hd
  · intro t d rest c m hd
    cases hd

end History

/-! ## The order of messages -/

namespace GrantHistory

/-- The history of the server that a configuration describes, once it is set up. -/
def ofConfig (config : ServerConfig) (ids : Ids) : GrantHistory := { toHistory := .ofConfig config ids }

theorem InTurn.ofConfig (config : ServerConfig) (ids : Ids) : (ofConfig config ids).InTurn :=
  (((InTurn.new _ _ ids).after (.register "connect" .welcome)).after (.register "disconnect" .farewell)).after
    (.register "message" (if config.broadcast then .relay else .echo))

theorem InTurn.foldl {s : GrantHistory} (hs : s.InTurn) (moves : List Move) :
    (moves.foldl GrantHistory.after s).InTurn := by
  induction moves generalizing s with
  | nil => exact hs
  | cons m more ih => exact ih (hs.after m)

theorem toHistory_foldl (s : GrantHistory) (moves : List Move) :
    (moves.foldl GrantHistory.after s).toHistory = moves.foldl History.after s.toHistory := by
  induction moves generalizing s with
  | nil => rfl
  | cons m more ih => exact ih (s.after m)

/-- Whoever takes hold of a connection later is not done yet. -/
theorem grants_foldl (s : GrantHistory) (moves : List Move) : ∃ more,
    (moves.foldl GrantHistory.after s).grants = s.grants ++ more ∧
    ∀ e ∈ more, ∀ x, s.world.threads[e.2]? = some x → x.agenda ≠ [] := by
  induction moves using List.reverseRecOn with
  | nil => exact ⟨[], by simp, by simp⟩
  | append_singleton front m ih =>
    obtain ⟨more, hgrants, hbusy⟩ := ih
    rw [List.foldl_concat]
    refine ⟨more ++ ((front.foldl GrantHistory.after s).world.grant? m).toList, ?_, fun e he => ?_⟩
    · show (front.foldl GrantHistory.after s).grants ++ _ = _
      rw [hgrants, List.append_assoc]
    · rcases List.mem_append.1 he with he | he
      · exact hbusy e he
      · intro x hx hnil
        -- a thread that has come to its end stays there
        obtain ⟨-, -, y, rest, hy, hlock⟩ := World.grant?_eq_some.1 (Option.mem_toList.1 he)
        rw [toHistory_foldl] at hy
        have hend : ∀ (moves : List Move) {h : History} {x : Thread}, h.world.threads[e.2]? = some x →
            x.agenda = [] → ∃ z, (moves.foldl History.after h).world.threads[e.2]? = some z ∧ z.agenda = [] := by
          intro moves
          induction moves with
          | nil => exact fun hx hnil => ⟨_, hx, hnil⟩
          | cons m more ih =>
            intro h x hx hnil
            obtain ⟨z, hz, hza, -⟩ := h.finished_after hx hnil m
            exact ih hz hza
        obtain ⟨z, hz, hza⟩ := hend front hx hnil
        cases hy.symm.trans hz
        cases hza.symm.trans hlock

end GrantHistory

/-- What the drains of a session get back in an echo server, if they took hold of the session in this order. In this
order their messages were told. What they took, and what still waits in the queue, is some of these messages in the
same order, and a drain that succeeds answers with what it took. -/
structure History.Returns (k : History) (c : Nat) (order : List Nat) : Prop where
  once : order.Nodup
  /-- Each of them has told of the first messages of its batch. -/
  drains : ∀ t ∈ order, ∃ r q, k.origins[t]? = some (some r) ∧ Admitted k.world r c q ∧
    entriesOf c (k.toldBy t) <+: q.messages
  told : k.toldFor c = order.flatMap fun t => entriesOf c (k.toldBy t)
  echoed : ((order.flatMap fun t => entriesOf c (k.takesBy t)).flatten ++ k.world.pendingOf c).Sublist (k.toldFor c)
  answers : ∀ t r x, k.origins[t]? = some (some r) → k.world.idOf? c = some (r.header.get sessionField) →
    k.world.threads[t]? = some x → x.agenda = [] → isSuccess x.answer.status = true →
    ∃ taken, k.takesBy t = taken.toList.map (Prod.mk c) ∧ Answered x.unwritable taken x.answer

/-- A drain that is answered with success answers with what it took. -/
theorem Course.answered_of_end {r : Request} {told : List (Nat × String)} {takes : List (Nat × List String)}
    {begun : List Nat} (h : Course w (some r) told takes begun x) (hdrains : r.opens = false)
    (hend : x.agenda = []) (hsuccess : isSuccess x.answer.status = true) :
    ∃ c q taken, Admitted w r c q ∧ takes = taken.toList.map (Prod.mk c) ∧ Answered x.unwritable taken x.answer := by
  cases h with
  | unserved ha =>
    cases hend.symm.trans ha
  | refused _ hrefused =>
    cases hsuccess.symm.trans hrefused
  | greeting hopens | greeted hopens =>
    cases hdrains.symm.trans hopens
  | @draining _ _ c n q front back taken hadmitted _ _ hdrain =>
    obtain ⟨result, rfl⟩ := hdrain.taken_le
    refine ⟨c, q, result, hadmitted, rfl, ?_⟩
    rw [hend] at hdrain
    generalize hanswer : x.answer = answer at hdrain ⊢
    generalize htaken : result.toList = taken at hdrain
    generalize hagenda : ([] : List Duty) = agenda at hdrain
    cases hdrain with
    | delivering => simp at hagenda
    | @done result' _ hanswered =>
      obtain rfl : result = result' := by
        cases result <;> cases result' <;> simp_all
      exact hanswered
    | _ => cases hagenda
  | interrupted hadmitted _ _ _ hanswer => exact ⟨_, _, none, hadmitted, rfl, by rw [hanswer]; exact ⟨rfl, rfl⟩⟩

/-- What a drain that took hold of a session has told is the beginning of its batch. -/
theorem GrantHistory.Drains.told_part {s : GrantHistory} (h : s.Drains c t) :
    ∃ r q, s.origins[t]? = some (some r) ∧ Admitted s.world r c q ∧ entriesOf c (s.toldBy t) <+: q.messages := by
  obtain ⟨r, q, ho, hadmitted, houtcome⟩ := h
  refine ⟨r, q, ho, hadmitted, ?_⟩
  cases houtcome with
  | holding _ _ _ htold hbatch | thrown _ _ _ htold hbatch =>
    rw [htold, entriesOf_map, if_pos rfl]
    exact hbatch
  | complete _ _ htold =>
    rw [htold, entriesOf_map, if_pos rfl]

namespace History

/-- Every run of an echo server gives back what was sent, in order. A drain that came in after another one of the
session was done stands behind it in the order. -/
theorem returns_run (hecho : config.broadcast = false) (ids : Ids) (hmoves : ∀ m ∈ moves, m.serves = true)
    (c : Nat) : let k := moves.foldl History.after (ofConfig config ids)
    k.world.Distinct → ∃ order, k.Returns c order ∧
      ∀ early late, moves = early ++ late → ∀ t ∈ order, ∀ t' ∈ order,
        let e := early.foldl History.after (ofConfig config ids)
        t < e.world.threads.length → e.world.agenda t = [] → e.world.threads.length ≤ t' → [t, t'].Sublist order := by
  intro k hdistinct
  have hh : k.Echoes := (Echoes.ofConfig hecho ids).foldl hmoves
  have hturn : (moves.foldl GrantHistory.after (.ofConfig config ids)).InTurn :=
    (GrantHistory.InTurn.ofConfig config ids).foldl moves
  have hhistory : (moves.foldl GrantHistory.after (.ofConfig config ids)).toHistory = k :=
    GrantHistory.toHistory_foldl _ moves
  set s := moves.foldl GrantHistory.after (.ofConfig config ids) with hs
  refine ⟨s.drainsOf c, ⟨hturn.nodup_drainsOf c, ?_, ?_, ?_, ?_⟩, ?_⟩
  · intro t ht
    rw [← hhistory]
    exact (hturn.drains c t (mem_entriesOf.1 ht)).told_part
  · rw [← hhistory]
    exact hturn.told.whole c
  · have htakes : k.takesFrom c = (s.drainsOf c).flatMap fun t => entriesOf c (k.takesBy t) := by
      rw [← hhistory]
      exact hturn.takes.whole c
    rw [← htakes, ← hh.sound.conserved c]
    exact hh.echoed c
  · intro t r x ho hid' hx hend hsuccess
    obtain ⟨o, ho', hcourse⟩ := hh.sound.courses t x hx
    cases ho.symm.trans ho'
    have hdrains : r.opens = false := by
      obtain ⟨hempty, hnull⟩ := hh.sound.tabled.named c _ hid'
      simp [Request.opens, hempty, hnull]
    obtain ⟨c', q, taken, hadmitted, htakes, hanswered⟩ := hcourse.answered_of_end hdrains hend hsuccess
    obtain rfl : c' = c := World.distinct_iff.1 hdistinct c' c _ hadmitted.session hid'
    exact ⟨taken, htakes, hanswered⟩
  · rintro early late rfl t ht t' ht' e hold hend hnew
    have hearly : (early.foldl GrantHistory.after (.ofConfig config ids)).toHistory = e :=
      GrantHistory.toHistory_foldl _ early
    have hturn' : (early.foldl GrantHistory.after (.ofConfig config ids)).InTurn :=
      (GrantHistory.InTurn.ofConfig config ids).foldl early
    rw [List.foldl_append] at hs
    obtain ⟨more, hgrants, hbusy⟩ := (early.foldl GrantHistory.after (.ofConfig config ids)).grants_foldl late
    rw [← hs] at hgrants
    generalize early.foldl GrantHistory.after (.ofConfig config ids) = s' at hearly hturn' hgrants hbusy
    rw [← hearly] at hold hend hnew
    simp only [GrantHistory.drainsOf, hgrants, entriesOf_append, List.mem_append] at ht ht' ⊢
    -- the one that was done had taken hold before, the other one had not
    have hfirst : t ∈ entriesOf c s'.grants := by
      refine ht.resolve_right fun hlater => ?_
      have hx := List.getElem?_eq_getElem hold
      rw [World.agenda_of_some hx] at hend
      exact hbusy (c, t) (mem_entriesOf.1 hlater) _ hx hend
    have hsecond : t' ∈ entriesOf c more := by
      refine ht'.resolve_left fun hbefore => ?_
      obtain ⟨_, _, ho, -⟩ := hturn'.drains c t' (mem_entriesOf.1 hbefore)
      have hlt := (List.getElem?_eq_some_iff.1 ho).1
      rw [hturn'.sound.aligned] at hlt
      omega
    exact (List.singleton_sublist.2 hfirst).append (List.singleton_sublist.2 hsecond)

end History

end PollSocket.Server
