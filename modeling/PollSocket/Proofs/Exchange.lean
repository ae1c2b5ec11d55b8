import Mathlib
import PollSocket.Exchange.Request
import PollSocket.Server.Upgrade

set_option autoImplicit false

/-!
# Requests of a session

The request that is made of an exchange names the session and asks for nothing but an exchange
(`request_ofSession`); its result is a body exactly if the status is one of success
(`result_response`).
-/

namespace PollSocket

/-- The fields of a session. -/
def sessionHeader (session protocol : String) : Header :=
  ⟨[("Pseudo-Websocket", [session]), ("Pseudo-Websocket-Protocol", [protocol])]⟩

/-- A request has the method and the bytes of its exchange and its fields, which credentials of the
address may join. -/
theorem parts_of_request {shared : Header} {x : Exchange} {r : Request}
    (h : x.request shared = .ok r) :
    (r.method = x.verb ∧ r.body = x.bytes) ∧ ∃ fields : Header,
      fields = (if x.contentType.isEmpty then (({} : Header).addAll shared).addAll x.header
        else ((({} : Header).addAll shared).addAll x.header).set "Content-Type" x.contentType) ∧
      (r.header = fields ∨ ∃ value, r.header = fields.set "Authorization" value) := by
  unfold Exchange.request at h
  split at h
  · cases h
  · split at h
    · cases h
    · cases h
      refine ⟨⟨rfl, rfl⟩, _, rfl, ?_⟩
      generalize (if x.contentType.isEmpty then _ else _ : Header) = fields
      split
      · split
        · exact Or.inr ⟨_, rfl⟩
        · exact Or.inl rfl
      · exact Or.inl rfl

/-- The request of an exchange of a session. -/
theorem request_ofSession {url session protocol : String} {body : Option (List UInt8)} {r : Request}
    (h : (Exchange.ofSession url session protocol body).request {} = .ok r) :
    r.method = "POST" ∧ r.header.get sessionField = session ∧
      Server.asksUpgrade r.header = false ∧ r.body = body.getD [] := by
  obtain ⟨⟨hmethod, hbody⟩, fields, hfields, hheader⟩ := parts_of_request h
  have hbase : fields = (sessionHeader session protocol).set "Content-Type" jsonContent :=
    hfields.trans rfl
  have hnamed : ∀ header : Header, header.values sessionField = [session] →
      header.values "Connection" = [] →
      header.get sessionField = session ∧ Server.asksUpgrade header = false := by
    intro header hs hc
    refine ⟨by rw [Header.get, hs]; rfl, ?_⟩
    rw [Server.asksUpgrade, Server.fieldHasToken, hc]
    rfl
  obtain ⟨hget, hplain⟩ : r.header.get sessionField = session ∧
      Server.asksUpgrade r.header = false := by
    rcases hheader with hsame | ⟨value, hadded⟩
    · rw [hsame, hbase]
      exact hnamed _ rfl rfl
    · rw [hadded, hbase]
      exact hnamed _ rfl rfl
  exact ⟨hmethod, hget, hplain, hbody⟩

/-- The result of a response that arrives whole. -/
theorem result_response (r : Request) (written : String) (code : Int) (status : String)
    (bytes kept : List UInt8) :
    (Reply.response code status bytes none).result r written = .ok kept ↔
      isSuccess code = true ∧ kept = bytes.take maxBody := by
  have hbroken : (if (bytes.take maxBody).length < maxBody then (none : Option String) else none) =
      none := ite_self _
  unfold Reply.result
  dsimp only
  rw [hbroken]
  dsimp only
  split
  next hs =>
    simp [hs, eq_comm]
  next hs => simp [hs]

end PollSocket
