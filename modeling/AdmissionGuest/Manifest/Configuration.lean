import AdmissionGuest.Document
/-!
The configuration of a container image: how it is executed, what its file system is made of, and
how it was built. Hosts spell some members differently; both spellings are read.
-/

namespace AdmissionGuest

open Shaped

/-- How a container of the image is executed unless told otherwise. -/
structure ContainerConfig where
  user : Option String
  exposedPorts : Option (Dict String Value)
  env : Option (List String)
  entrypoint : Option (List String)
  cmd : Option (List String)
  volumes : Option (Dict String Value)
  workingDir : Option String
  labels : Option (Dict String String)
  stopSignal : Option String
  argsEscaped : Option Bool

instance : Named ContainerConfig := ⟨"ContainerConfig"⟩

instance : Shaped ContainerConfig where
  shape := .named "ContainerConfig" <| .optionalAs "User" "user" .text <|
    .optionalAs "ExposedPorts" "exposedPorts" (.dict .any) <|
    .optionalAs "Env" "env" (.list .text) <|
    .optionalAs "Entrypoint" "entrypoint" (.list .text) <|
    .optionalAs "Cmd" "cmd" (.list .text) <| .optionalAs "Volumes" "volumes" (.dict .any) <|
    .optionalAs "WorkingDir" "workingDir" .text <| .optionalAs "Labels" "labels" (.dict .text) <|
    .optionalAs "StopSignal" "stopSignal" .text <|
    .optionalAs "ArgsEscaped" "argsEscaped" .flag .nil
  toVal c := (c.user, c.exposedPorts, c.env, c.entrypoint, c.cmd, c.volumes, c.workingDir, c.labels,
    c.stopSignal, c.argsEscaped, ())
  ofVal := fun (user, exposedPorts, env, entrypoint, cmd, volumes, workingDir, labels, stopSignal,
      argsEscaped, ()) =>
    { user, exposedPorts, env, entrypoint, cmd, volumes, workingDir, labels, stopSignal,
      argsEscaped }
  ofVal_toVal _ := rfl
  toVal_ofVal _ := rfl

/-- The layers of the root file system, by content. -/
structure RootFs where
  fsType : String
  diffIds : List String
  deriving DecidableEq, Repr

instance : Named RootFs := ⟨"RootFs"⟩

instance : Shaped RootFs where
  shape := .named "RootFs" <| .defaulted "type" .text <|
    .defaultedAs "diff_ids" "diffIds" (.list .text) .nil
  toVal r := (r.fsType, r.diffIds, ())
  ofVal := fun (fsType, diffIds, ()) => { fsType, diffIds }
  ofVal_toVal _ := rfl
  toVal_ofVal _ := rfl

/-- One step of the build of an image. -/
structure History where
  created : Option String
  createdBy : Option String
  author : Option String
  comment : Option String
  emptyLayer : Option Bool
  deriving DecidableEq, Repr

instance : Named History := ⟨"History"⟩

instance : Shaped History where
  shape := .named "History" <| .optional "created" .text <|
    .optionalAs "created_by" "createdBy" .text <| .optional "author" .text <|
    .optional "comment" .text <| .optionalAs "empty_layer" "emptyLayer" .flag .nil
  toVal h := (h.created, h.createdBy, h.author, h.comment, h.emptyLayer, ())
  ofVal := fun (created, createdBy, author, comment, emptyLayer, ()) =>
    { created, createdBy, author, comment, emptyLayer }
  ofVal_toVal _ := rfl
  toVal_ofVal _ := rfl

/-- The configuration of an image. -/
structure ImageConfiguration where
  created : Option String
  author : Option String
  architecture : String
  os : String
  osVersion : Option String
  variant : Option String
  config : Option ContainerConfig
  rootfs : RootFs
  history : Option (List History)

instance : Named ImageConfiguration := ⟨"ImageConfiguration"⟩

instance : Shaped ImageConfiguration where
  shape := .named "ImageConfiguration" <| .optional "created" .text <|
    .optional "author" .text <| .required "architecture" .text <| .required "os" .text <|
    .optionalAs "os.version" "osVersion" .text <| .optional "variant" .text <|
    .optional "config" (shape ContainerConfig) <| .defaulted "rootfs" (shape RootFs) <|
    .optional "history" (shape (List History)) .nil
  toVal c := (c.created, c.author, c.architecture, c.os, c.osVersion, c.variant,
    c.config.map toVal, toVal c.rootfs, c.history.map toVal, ())
  ofVal := fun (created, author, architecture, os, osVersion, variant, config, rootfs, history,
      ()) =>
    { created, author, architecture, os, osVersion, variant, config := config.map ofVal,
      rootfs := ofVal rootfs, history := history.map ofVal }
  ofVal_toVal _ := by simp [Function.comp_def]
  toVal_ofVal := by
    intro (created, author, architecture, os, osVersion, variant, config, rootfs, history, ())
    simp [Function.comp_def]
    rfl

end AdmissionGuest
