import PollSocket.Proofs.Socket.Flights

set_option autoImplicit false

/-!
# What goes over the wire

`Wired` is the invariant of exchanges and sessions. A handshake names no session; a drain names the
session of its socket and carries its batch. A session is one that an answer to the handshake of the
socket has brought, and as a socket has one handshake only, its session never changes.
-/

namespace PollSocket.Socket

/-- The exchange of a call is one of its socket. -/
def Call.Wired (x : Call) (owner : Socket) : Prop :=
  match x.batch with
  | none => x.exchange = Exchange.ofSession owner.url nullSession owner.protocol none
  | some batch => ∃ id, owner.session = .assigned id ∧
      x.exchange = Exchange.ofSession owner.url id owner.protocol
        (some (DrainRequest.body ⟨id, owner.protocol, batch⟩))

/-- Exchanges are those of the sessions that were assigned. -/
structure Wired (taken : List Task) (w : World) : Prop where
  calls : ∀ (c : Nat) (x : Call), w.calls[c]? = some x → x.Wired (w.socket x.owner)
  assigned : ∀ s id, (w.socket s).session = .assigned id → ∃ c body x,
    Task.succeed c body ∈ taken ∧ w.calls[c]? = some x ∧ x.owner = s ∧ x.batch = none ∧
      decodeHandshakeResponse body = .ok id
  opened : ∀ s, (w.socket s).state = .opened → ∃ id, (w.socket s).session = .assigned id
  /-- A socket has one handshake. -/
  once : ∀ (c d : Nat) (x y : Call), w.calls[c]? = some x → w.calls[d]? = some y →
    x.owner = y.owner → x.batch = none → y.batch = none → c = d

namespace Wired

variable {taken : List Task} {w v : World}

theorem wiring_eq {x y : Socket} (h : x.wiring = y.wiring) :
    x.url = y.url ∧ x.protocol = y.protocol ∧ x.session = y.session := by
  simpa [Socket.wiring] using h

theorem call_congr {x : Call} {r s : Socket} (hwiring : r.wiring = s.wiring) (h : x.Wired s) :
    x.Wired r := by
  obtain ⟨hurl, hprotocol, hsession⟩ := wiring_eq hwiring
  unfold Call.Wired at h ⊢
  rw [hurl, hprotocol, hsession]
  exact h

variable (h : Wired taken w)
include h

/-- Calls may get flags, and everything that is not part of an exchange may change. -/
theorem congr (hkeeps : w.Keeps v) (hlength : v.calls.length = w.calls.length)
    (hwiring : ∀ s, (v.socket s).wiring = (w.socket s).wiring)
    (hopened : ∀ s, (v.socket s).state = .opened → ∃ id, (w.socket s).session = .assigned id) :
    Wired taken v where
  calls c x hx := by
    obtain ⟨y, hy, howner, hexchange, hbatch⟩ := hkeeps.back hlength hx
    have hwired := call_congr (hwiring y.owner) (h.calls c y hy)
    unfold Call.Wired at hwired ⊢
    rw [hbatch, hexchange, howner]
    exact hwired
  assigned s id hs := by
    rw [(wiring_eq (hwiring s)).2.2] at hs
    obtain ⟨c, body, x, hmem, hx, hown, hnone, hid⟩ := h.assigned s id hs
    obtain ⟨y, hy, howner, -, hbatch⟩ := hkeeps c x hx
    exact ⟨c, body, y, hmem, hy, howner.trans hown, hbatch.trans hnone, hid⟩
  opened s hs := by
    rw [(wiring_eq (hwiring s)).2.2]
    exact hopened s hs
  once c d x y hx hy hown hnx hny := by
    obtain ⟨x', hx', howner, -, hbatch⟩ := hkeeps.back hlength hx
    obtain ⟨y', hy', howner', -, hbatch'⟩ := hkeeps.back hlength hy
    refine h.once c d x' y' hx' hy' ?_ (hbatch.symm.trans hnx) (hbatch'.symm.trans hny)
    rw [← howner, ← howner', hown]

/-- Calls and all that exchanges are made of stay as they are. -/
theorem same (hcalls : v.calls = w.calls) (hwiring : ∀ s, (v.socket s).wiring = (w.socket s).wiring)
    (hopened : ∀ s, (v.socket s).state = .opened → (w.socket s).state = .opened) :
    Wired taken v :=
  h.congr (.of_eq hcalls) (congrArg List.length hcalls) hwiring fun s hs => h.opened s (hopened s hs)

theorem quiet (q : Quiet w v) : Wired taken v := h.same q.calls q.wiring q.opened

theorem take (t : Task) (l : Loop Task) : Wired (taken ++ [t]) { w with loop := l } where
  __ := h
  assigned s id hs := by
    obtain ⟨c, body, x, hmem, hx⟩ := h.assigned s id hs
    exact ⟨c, body, x, List.mem_append_left _ hmem, hx⟩

/-- A call is issued: a handshake by a socket that has issued nothing, or a drain. -/
theorem issue {x : Call} (hcalls : v.calls = w.calls ++ [x]) (hwired : x.Wired (w.socket x.owner))
    (hfirst : x.batch = none → ∀ (c : Nat) (y : Call), w.calls[c]? = some y → y.owner ≠ x.owner)
    (hwiring : ∀ s, (v.socket s).wiring = (w.socket s).wiring)
    (hstate : ∀ s, (v.socket s).state = (w.socket s).state) : Wired taken v := by
  have hget : ∀ (c : Nat) (y : Call), v.calls[c]? = some y →
      w.calls[c]? = some y ∨ c = w.calls.length ∧ y = x :=
    fun _ _ hy => World.call_of_append hcalls hy
  exact
    { calls c y hy := by
        refine call_congr (hwiring y.owner) ?_
        rcases hget c y hy with hy | ⟨-, rfl⟩
        · exact h.calls c y hy
        · exact hwired
      assigned s id hs := by
        rw [(wiring_eq (hwiring s)).2.2] at hs
        obtain ⟨c, body, y, hmem, hy, hrest⟩ := h.assigned s id hs
        refine ⟨c, body, y, hmem, ?_, hrest⟩
        rw [hcalls, List.getElem?_append_left (List.getElem?_eq_some_iff.1 hy).1, hy]
      opened s hs := by
        rw [(wiring_eq (hwiring s)).2.2]
        exact h.opened s (by rwa [hstate] at hs)
      once c d y z hy hz hown hny hnz := by
        rcases hget c y hy with hy | ⟨rfl, rfl⟩
        · rcases hget d z hz with hz | ⟨rfl, rfl⟩
          · exact h.once c d y z hy hz hown hny hnz
          · exact absurd hown (hfirst hnz c y hy)
        · rcases hget d z hz with hz | ⟨rfl, -⟩
          · exact absurd hown.symm (hfirst hny d z hz)
          · rfl }

/-- The answer to the handshake brings the session. -/
theorem assign {s c : Nat} {body : List UInt8} {x : Call} {id : String}
    (hmem : Task.succeed c body ∈ taken) (hx : w.calls[c]? = some x) (hown : x.owner = s)
    (hbatch : x.batch = none) (hid : decodeHandshakeResponse body = .ok id)
    (hnew : (w.socket s).session = .unassigned) :
    Wired taken (w.update s fun x => { x with session := .assigned id }) := by
  have hother : ∀ r, r ≠ s →
      (w.update s fun x => { x with session := .assigned id }).socket r = w.socket r := by
    intro r hr
    rw [World.socket_update, if_neg fun hand => hr hand.1]
  exact
    { calls d y hy := by
        by_cases hys : y.owner = s
        · have hwired := h.calls d y hy
          rw [hys] at hwired ⊢
          unfold Call.Wired at hwired ⊢
          cases hb : y.batch with
          | none =>
            rw [hb] at hwired
            dsimp only at hwired ⊢
            rw [World.socket_update, hwired]
            split <;> rfl
          | some batch =>
            rw [hb] at hwired
            -- a drain would have needed a session before
            obtain ⟨id', hassigned, -⟩ := hwired
            cases hnew.symm.trans hassigned
        · rw [hother _ hys]
          exact h.calls d y hy
      assigned r id' hr := by
        by_cases hrs : r = s
        · subst hrs
          rw [World.socket_update] at hr
          split at hr
          · cases hr
            exact ⟨c, body, x, hmem, hx, hown, hbatch, hid⟩
          · cases hnew.symm.trans hr
        · rw [hother r hrs] at hr
          exact h.assigned r id' hr
      opened r hr := by
        by_cases hrs : r = s
        · rw [World.socket_update] at hr ⊢
          split
          · exact ⟨id, rfl⟩
          next hlt =>
            rw [if_neg hlt] at hr
            exact h.opened r hr
        · rw [hother r hrs] at hr ⊢
          exact h.opened r hr
      once := h.once }

/-- A socket comes into being. -/
theorem addSocket {x : Socket}
    (howned : ∀ (c : Nat) (y : Call), w.calls[c]? = some y → y.owner < w.sockets.length)
    (hsession : x.session = .unassigned) (hstate : x.state = .connecting) :
    Wired taken (w.addSocket x) where
  calls c y hy := by
    have hlt := howned c y hy
    rw [World.socket_addSocket, if_neg hlt.ne]
    exact h.calls c y hy
  assigned s id hs := by
    rw [World.socket_addSocket] at hs
    split at hs
    · cases hsession.symm.trans hs
    · exact h.assigned s id hs
  opened s hs := by
    rw [World.socket_addSocket] at hs ⊢
    split
    next heq =>
      rw [if_pos heq, hstate] at hs
      cases hs
    next hne =>
      rw [if_neg hne] at hs
      exact h.opened s hs
  once := h.once

/-- The call in flight is given up. -/
theorem release (s : Nat) : Wired taken (w.release s) := by
  refine h.congr (w.keeps_release s) (w.length_calls_release s)
    (w.field_release s Socket.wiring fun _ _ => rfl) fun r hr => h.opened r ?_
  rwa [w.field_release s (·.state) fun _ _ => rfl] at hr

/-- The session of a socket whose handshake is not completed is not assigned. -/
theorem unassigned {c : Nat} {x : Call} (hx : w.calls[c]? = some x)
    (hbatch : x.batch = none) (hopen : completed taken c = false) :
    (w.socket x.owner).session = .unassigned := by
  cases hs : (w.socket x.owner).session with
  | unassigned => rfl
  | assigned id =>
    obtain ⟨d, body, y, hmem, hy, hown, hnone, -⟩ := h.assigned _ id hs
    -- the handshake that has brought the session is this one, which is outstanding
    obtain rfl := h.once c d x y hx hy hown.symm hbatch hnone
    have hdone : succeeded taken c = true :=
      List.any_eq_true.2 ⟨_, hmem, by simp [Task.succeeds]⟩
    rw [completed_of_succeeded hdone] at hopen
    cases hopen

/-- The session of a socket that has issued nothing is not assigned. -/
theorem unassigned_of_none {s : Nat} (hnone : ∀ (c : Nat) (x : Call), w.calls[c]? = some x → x.owner ≠ s) :
    (w.socket s).session = .unassigned := by
  cases hs : (w.socket s).session with
  | unassigned => rfl
  | assigned id =>
    obtain ⟨c, -, x, -, hx, hown, -⟩ := h.assigned s id hs
    exact absurd hown (hnone c x hx)

end Wired

end PollSocket.Socket
