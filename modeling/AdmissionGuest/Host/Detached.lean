import AdmissionGuest.Host.Basic
/-!
The host of a guest that runs as a program of its own: there is nobody to call. Every call fails
with a fixed text. Without a call to answer, a reply is what is left on the input stream, since that
is where a host would have put it.
-/

namespace AdmissionGuest

def hostUnavailableText : String :=
  "host capabilities are only available inside a WebAssembly guest"

/-- The state of a missing host: the reply to the latest call, until it is read. -/
structure DetachedHost where
  pending : Option Bytes := none
  deriving DecidableEq, Repr

instance : Host DetachedHost where
  call address _ s :=
    let s := s.record (.hostUnavailable address hostUnavailableText)
    (false, { s with host := ⟨some (Utf8.encode hostUnavailableText)⟩ })
  reply := do
    let s ← get
    match s.host.pending with
    | some body =>
      modify fun s => { s with host := ⟨none⟩ }
      return body
    | none => readInput

end AdmissionGuest
