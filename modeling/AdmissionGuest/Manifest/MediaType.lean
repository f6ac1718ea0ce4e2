/-!
The media types that registry content is labelled with, and which of them name a manifest or an
index.
-/

namespace AdmissionGuest.MediaType

def ociImageManifest : String := "application/vnd.oci.image.manifest.v1+json"

def ociImageIndex : String := "application/vnd.oci.image.index.v1+json"

def ociImageConfig : String := "application/vnd.oci.image.config.v1+json"

def ociDescriptor : String := "application/vnd.oci.descriptor.v1+json"

def ociLayerGzip : String := "application/vnd.oci.image.layer.v1.tar+gzip"

def dockerImageManifest : String := "application/vnd.docker.distribution.manifest.v2+json"

def dockerManifestList : String := "application/vnd.docker.distribution.manifest.list.v2+json"

def imageManifests : List String := [ociImageManifest, dockerImageManifest]

def imageIndexes : List String := [ociImageIndex, dockerManifestList]

def isImageManifest (mediaType : String) : Bool := imageManifests.contains mediaType

def isImageIndex (mediaType : String) : Bool := imageIndexes.contains mediaType

end AdmissionGuest.MediaType
