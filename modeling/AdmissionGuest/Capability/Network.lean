import AdmissionGuest.Capability.Basic
/-!
Network lookups through the host.
-/

namespace AdmissionGuest

/-- The network addresses of a host name. -/
structure DnsLookupResponse where
  ips : List String
  deriving DecidableEq, Repr

instance : Named DnsLookupResponse := ⟨"DnsLookupResponse"⟩

instance : Shaped DnsLookupResponse where
  shape := .named "DnsLookupResponse" <| .required "ips" (.list .text) .nil
  toVal r := (r.ips, ())
  ofVal := fun (ips, ()) => { ips }
  ofVal_toVal _ := rfl
  toVal_ofVal _ := rfl

namespace Capability

def dnsLookup : Capability String DnsLookupResponse := ⟨.dnsLookupHost⟩

end Capability

end AdmissionGuest
