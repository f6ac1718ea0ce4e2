/-!
The names of what a host offers. A capability is addressed by three parts; the binding is the same
for all of them.
-/

namespace AdmissionGuest

/-- The address of one capability of the host. -/
structure Address where
  binding : String
  space : String
  operation : String
  deriving DecidableEq, Repr

namespace Address

def shown (a : Address) : String :=
  a.binding ++ "/" ++ a.space ++ "/" ++ a.operation

def hostBinding : String := "kubewarden"

def host (space operation : String) : Address := ⟨hostBinding, space, operation⟩

def isCertificateTrusted : Address := host "crypto" "v1/is_certificate_trusted"

def dnsLookupHost : Address := host "net" "v1/dns_lookup_host"

def getResource : Address := host "kubernetes" "get_resource"

def listResourcesByNamespace : Address := host "kubernetes" "list_resources_by_namespace"

def listResourcesAll : Address := host "kubernetes" "list_resources_all"

def canI : Address := host "kubernetes" "can_i"

def manifestDigest : Address := host "oci" "v1/manifest_digest"

def ociManifest : Address := host "oci" "v1/oci_manifest"

def ociManifestConfig : Address := host "oci" "v1/oci_manifest_config"

/-- All modes of verification have this address. -/
def verify : Address := host "oci" "v2/verify"

def all : List Address :=
  [isCertificateTrusted, dnsLookupHost, getResource, listResourcesByNamespace, listResourcesAll,
    canI, manifestDigest, ociManifest, ociManifestConfig, verify]

end Address

end AdmissionGuest
