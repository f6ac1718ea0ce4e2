import AdmissionGuest.Document
/-!
The document that a guest is asked to judge: an admission request of the cluster, and the settings
of the policy. Objects of the cluster are carried as they are; the policy reads its settings.
-/

namespace AdmissionGuest

/-- API group, version and kind of an object. -/
structure GroupVersionKind where
  group : String
  version : String
  kind : String
  deriving DecidableEq, Repr

instance : Named GroupVersionKind := ⟨"GroupVersionKind"⟩

instance : Shaped GroupVersionKind where
  shape := .named "GroupVersionKind" <| .defaulted "group" .text <| .required "version" .text <|
    .required "kind" .text .nil
  toVal k := (k.group, k.version, k.kind, ())
  ofVal := fun (group, version, kind, ()) => { group, version, kind }
  ofVal_toVal _ := rfl
  toVal_ofVal _ := rfl

/-- API group, version and resource. -/
structure GroupVersionResource where
  group : String
  version : String
  resource : String
  deriving DecidableEq, Repr

instance : Named GroupVersionResource := ⟨"GroupVersionResource"⟩

instance : Shaped GroupVersionResource where
  shape := .named "GroupVersionResource" <| .defaulted "group" .text <|
    .required "version" .text <| .required "resource" .text .nil
  toVal r := (r.group, r.version, r.resource, ())
  ofVal := fun (group, version, resource, ()) => { group, version, resource }
  ofVal_toVal _ := rfl
  toVal_ofVal _ := rfl

/-- Identity of the user who makes a request. -/
structure UserInfo where
  username : Option String
  uid : Option String
  groups : Option (List String)
  extra : Option (Dict String (List String))
  deriving DecidableEq

instance : Named UserInfo := ⟨"UserInfo"⟩

instance : Shaped UserInfo where
  shape := .named "UserInfo" <| .optional "username" .text <| .optional "uid" .text <|
    .optional "groups" (.list .text) <| .optional "extra" (.dict (.list .text)) .nil
  toVal u := (u.username, u.uid, u.groups, u.extra, ())
  ofVal := fun (username, uid, groups, extra, ()) => { username, uid, groups, extra }
  ofVal_toVal _ := rfl
  toVal_ofVal _ := rfl

/-- A request of the cluster to admit an operation on an object. -/
structure AdmissionRequest where
  uid : String
  kind : GroupVersionKind
  resource : GroupVersionResource
  subResource : Option String
  /-- the kind that was asked for, if the cluster converted it -/
  requestKind : Option GroupVersionKind
  /-- the resource that was asked for, if the cluster converted it -/
  requestResource : Option GroupVersionResource
  requestSubResource : Option String
  name : Option String
  inNamespace : Option String
  operation : String
  userInfo : UserInfo
  object : Option Value
  oldObject : Option Value
  dryRun : Option Bool
  options : Option Value

instance : Named AdmissionRequest := ⟨"AdmissionRequest"⟩

namespace AdmissionRequest

open Shaped

instance : Shaped AdmissionRequest where
  shape := .named "AdmissionRequest" <| .required "uid" .text <|
    .required "kind" (shape GroupVersionKind) <|
    .required "resource" (shape GroupVersionResource) <| .optional "subResource" .text <|
    .optional "requestKind" (shape GroupVersionKind) <|
    .optional "requestResource" (shape GroupVersionResource) <|
    .optional "requestSubResource" .text <| .optional "name" .text <| .optional "namespace" .text <|
    .required "operation" .text <| .defaulted "userInfo" (shape UserInfo) <|
    .optional "object" .any <| .optional "oldObject" .any <| .optional "dryRun" .flag <|
    .optional "options" .any .nil
  toVal r := (r.uid, toVal r.kind, toVal r.resource, r.subResource, r.requestKind.map toVal,
    r.requestResource.map toVal, r.requestSubResource, r.name, r.inNamespace, r.operation,
    toVal r.userInfo, r.object, r.oldObject, r.dryRun, r.options, ())
  ofVal := fun (uid, kind, resource, subResource, requestKind, requestResource, requestSubResource,
      name, inNamespace, operation, userInfo, object, oldObject, dryRun, options, ()) =>
    { uid, kind := ofVal kind, resource := ofVal resource, subResource,
      requestKind := requestKind.map ofVal, requestResource := requestResource.map ofVal,
      requestSubResource, name, inNamespace, operation, userInfo := ofVal userInfo, object,
      oldObject, dryRun, options }
  ofVal_toVal _ := by simp [Function.comp_def]
  toVal_ofVal := by
    intro (uid, kind, resource, subResource, requestKind, requestResource, requestSubResource,
      name, inNamespace, operation, userInfo, object, oldObject, dryRun, options, ())
    simp [Function.comp_def]
    rfl

end AdmissionRequest

/-- The input of a validation: the request, and the settings of the policy. -/
structure ValidationRequest (Settings : Type) where
  request : AdmissionRequest
  settings : Settings

/-- Settings that are not interpreted go without saying, whatever policy they belong to. -/
instance (S : Type) [Named S] : Named (ValidationRequest S) :=
  ⟨if Named.name S = Named.name Value then "ValidationRequest"
    else "ValidationRequest<" ++ Named.name S ++ ">"⟩

instance (S : Type) [Shaped S] : Shaped (ValidationRequest S) where
  shape := .named "ValidationRequest" <|
    .required "request" (Shaped.shape AdmissionRequest) <|
    .required "settings" (Shaped.shape S) .nil
  toVal r := (Shaped.toVal r.request, Shaped.toVal r.settings, ())
  ofVal := fun (request, settings, ()) =>
    { request := Shaped.ofVal request, settings := Shaped.ofVal settings }
  ofVal_toVal _ := by simp
  toVal_ofVal := by
    intro (request, settings, ())
    simp
    rfl

end AdmissionGuest
