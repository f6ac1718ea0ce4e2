import AdmissionGuest.Capability.Basic
/-!
Access to the cluster through the host: single objects, lists of objects, and access reviews.
Objects come back as documents; whoever asks chooses the type they are read as.
-/

namespace AdmissionGuest

open Shaped

/-- Asks for one object by its name. -/
structure GetResourceRequest where
  apiVersion : String
  kind : String
  name : String
  /-- absent for kinds that belong to no namespace -/
  inNamespace : Option String
  /-- whether the host is to bypass its cache -/
  disableCache : Bool
  deriving DecidableEq, Repr

instance : Named GetResourceRequest := ⟨"GetResourceRequest"⟩

instance : Shaped GetResourceRequest where
  shape := .named "GetResourceRequest" <| .required "api_version" .text <|
    .required "kind" .text <| .required "name" .text <| .optional "namespace" .text <|
    .defaulted "disable_cache" .flag .nil
  toVal r := (r.apiVersion, r.kind, r.name, r.inNamespace, r.disableCache, ())
  ofVal := fun (apiVersion, kind, name, inNamespace, disableCache, ()) =>
    { apiVersion, kind, name, inNamespace, disableCache }
  ofVal_toVal _ := rfl
  toVal_ofVal _ := rfl

/-- Asks for the objects of a kind in one namespace. -/
structure ListResourcesByNamespaceRequest where
  apiVersion : String
  kind : String
  inNamespace : String
  labelSelector : Option String
  fieldSelector : Option String
  deriving DecidableEq, Repr

instance : Named ListResourcesByNamespaceRequest := ⟨"ListResourcesByNamespaceRequest"⟩

instance : Shaped ListResourcesByNamespaceRequest where
  shape := .named "ListResourcesByNamespaceRequest" <| .required "api_version" .text <|
    .required "kind" .text <| .required "namespace" .text <|
    .optional "label_selector" .text <| .optional "field_selector" .text .nil
  toVal r := (r.apiVersion, r.kind, r.inNamespace, r.labelSelector, r.fieldSelector, ())
  ofVal := fun (apiVersion, kind, inNamespace, labelSelector, fieldSelector, ()) =>
    { apiVersion, kind, inNamespace, labelSelector, fieldSelector }
  ofVal_toVal _ := rfl
  toVal_ofVal _ := rfl

/-- Asks for the objects of a kind in the whole cluster. -/
structure ListAllResourcesRequest where
  apiVersion : String
  kind : String
  labelSelector : Option String
  fieldSelector : Option String
  deriving DecidableEq, Repr

instance : Named ListAllResourcesRequest := ⟨"ListAllResourcesRequest"⟩

instance : Shaped ListAllResourcesRequest where
  shape := .named "ListAllResourcesRequest" <| .required "api_version" .text <|
    .required "kind" .text <| .optional "label_selector" .text <|
    .optional "field_selector" .text .nil
  toVal r := (r.apiVersion, r.kind, r.labelSelector, r.fieldSelector, ())
  ofVal := fun (apiVersion, kind, labelSelector, fieldSelector, ()) =>
    { apiVersion, kind, labelSelector, fieldSelector }
  ofVal_toVal _ := rfl
  toVal_ofVal _ := rfl

/-- What is to be accessed in an access review, and how. -/
structure ResourceAttributes where
  inNamespace : Option String
  verb : String
  /-- the API group, empty for the core group -/
  group : String
  resource : String
  subresource : Option String
  name : Option String
  version : Option String
  deriving DecidableEq, Repr

instance : Named ResourceAttributes := ⟨"ResourceAttributes"⟩

instance : Shaped ResourceAttributes where
  shape := .named "ResourceAttributes" <| .optional "namespace" .text <|
    .required "verb" .text <| .defaulted "group" .text <| .required "resource" .text <|
    .optional "subresource" .text <| .optional "name" .text <| .optional "version" .text .nil
  toVal a := (a.inNamespace, a.verb, a.group, a.resource, a.subresource, a.name, a.version, ())
  ofVal := fun (inNamespace, verb, group, resource, subresource, name, version, ()) =>
    { inNamespace, verb, group, resource, subresource, name, version }
  ofVal_toVal _ := rfl
  toVal_ofVal _ := rfl

/-- A subject, and what it wants to do. -/
structure SubjectAccessReview where
  user : String
  groups : Option (List String)
  resourceAttributes : ResourceAttributes
  deriving DecidableEq, Repr

instance : Named SubjectAccessReview := ⟨"SubjectAccessReview"⟩

instance : Shaped SubjectAccessReview where
  shape := .named "SubjectAccessReview" <| .required "user" .text <|
    .optional "groups" (.list .text) <|
    .required "resource_attributes" (shape ResourceAttributes) .nil
  toVal r := (r.user, r.groups, toVal r.resourceAttributes, ())
  ofVal := fun (user, groups, resourceAttributes, ()) =>
    { user, groups, resourceAttributes := ofVal resourceAttributes }
  ofVal_toVal _ := by simp
  toVal_ofVal := by
    intro (user, groups, resourceAttributes, ())
    simp
    rfl

/-- Asks whether a subject may do something. -/
structure CanIRequest where
  subjectAccessReview : SubjectAccessReview
  disableCache : Bool
  deriving DecidableEq, Repr

instance : Named CanIRequest := ⟨"CanIRequest"⟩

instance : Shaped CanIRequest where
  shape := .named "CanIRequest" <|
    .required "subject_access_review" (shape SubjectAccessReview) <|
    .defaulted "disable_cache" .flag .nil
  toVal r := (toVal r.subjectAccessReview, r.disableCache, ())
  ofVal := fun (subjectAccessReview, disableCache, ()) =>
    { subjectAccessReview := ofVal subjectAccessReview, disableCache }
  ofVal_toVal _ := by simp
  toVal_ofVal := by
    intro (subjectAccessReview, disableCache, ())
    simp
    rfl

/-- A list of objects. -/
structure ObjectList (Item : Type) where
  apiVersion : Option String
  kind : Option String
  metadata : Option Value
  items : List Item

instance (Item : Type) [Named Item] : Named (ObjectList Item) :=
  ⟨"ObjectList<" ++ Named.name Item ++ ">"⟩

instance (Item : Type) [Shaped Item] : Shaped (ObjectList Item) where
  shape := .named "ObjectList" <| .optional "apiVersion" .text <| .optional "kind" .text <|
    .optional "metadata" .any <| .defaulted "items" (shape (List Item)) .nil
  toVal l := (l.apiVersion, l.kind, l.metadata, toVal l.items, ())
  ofVal := fun (apiVersion, kind, metadata, items, ()) =>
    { apiVersion, kind, metadata, items := ofVal items }
  ofVal_toVal _ := by simp
  toVal_ofVal := by
    intro (apiVersion, kind, metadata, items, ())
    simp
    rfl

/-- The outcome of an access review. A denial is an answer and no error. -/
structure SubjectAccessReviewStatus where
  allowed : Bool
  denied : Bool
  reason : Option String
  evaluationError : Option String
  deriving DecidableEq, Repr

instance : Named SubjectAccessReviewStatus := ⟨"SubjectAccessReviewStatus"⟩

instance : Shaped SubjectAccessReviewStatus where
  shape := .named "SubjectAccessReviewStatus" <| .required "allowed" .flag <|
    .defaulted "denied" .flag <| .optional "reason" .text <|
    .optional "evaluationError" .text .nil
  toVal s := (s.allowed, s.denied, s.reason, s.evaluationError, ())
  ofVal := fun (allowed, denied, reason, evaluationError, ()) =>
    { allowed, denied, reason, evaluationError }
  ofVal_toVal _ := rfl
  toVal_ofVal _ := rfl

namespace Capability

def getResource (Item : Type) : Capability GetResourceRequest Item := ⟨.getResource⟩

def listByNamespace (Item : Type) :
    Capability ListResourcesByNamespaceRequest (ObjectList Item) :=
  ⟨.listResourcesByNamespace⟩

def listAll (Item : Type) : Capability ListAllResourcesRequest (ObjectList Item) :=
  ⟨.listResourcesAll⟩

def canI : Capability CanIRequest SubjectAccessReviewStatus := ⟨.canI⟩

end Capability

end AdmissionGuest
