import AdmissionGuest.Config
import AdmissionGuest.Proofs.Log.Level
/-!
The configuration, from what two variables were given. A text names a level or an encoding whatever
blanks stand around it and whatever the case of its letters. A text that names nothing leaves the
default, and one message quotes it as it was given. Neither variable has a part in what the other
sets.
-/

namespace AdmissionGuest

open Text

/-- The texts that set a level. -/
def Level.Names (level : Level) (raw : String) : Prop :=
  ∃ core, Padded core raw.toList ∧ level.Spells core

theorem Level.names_iff {level : Level} {raw : String} :
    level.Names raw ↔ level.Spells (trimBlanks raw.toList) := by
  constructor
  · rintro ⟨core, padded, spells⟩
    rw [trimBlanks_of_padded padded, trimBlanks_of_visible spells.visible]
    exact spells
  · intro spells
    exact ⟨_, padded_trimBlanks _, spells⟩

theorem Level.names_of_restyled {level : Level} {raw raw' : String} (restyled : Restyled raw raw') :
    level.Names raw ↔ level.Names raw' := by
  have same := asciiLower_inj.mp restyled.asciiLower_trim
  rw [toList_trim, toList_trim] at same
  rw [Level.names_iff, Level.names_iff]
  exact ⟨fun spells => spells.restyle same, fun spells => spells.restyle same.symm⟩

namespace ExpiryEncoding

/-- The words for an encoding. -/
inductive Word : ExpiryEncoding → String → Prop where
  | missing : Word omitted "omit"
  | empty : Word emptyText "empty"
  | emptyString : Word emptyText "empty-string"

/-- The texts that set an encoding. -/
def Names (encoding : ExpiryEncoding) (raw : String) : Prop :=
  ∃ core word, Padded core raw.toList ∧ SameLetters core word.toList ∧ encoding.Word word

/-- The words are written in lower case and without blanks. -/
theorem Word.plain {encoding : ExpiryEncoding} {word : String} (known : encoding.Word word) :
    asciiLower word = word ∧ trim word = word := by
  cases known <;> decide

theorem names_iff {encoding : ExpiryEncoding} {raw : String} :
    encoding.Names raw ↔ encoding.Word (asciiLower (trim raw)) := by
  constructor
  · rintro ⟨core, word, padded, same, known⟩
    have restyled : Restyled word raw := ⟨core, padded, same⟩
    rw [restyled.asciiLower_trim, known.plain.2, known.plain.1]
    exact known
  · intro known
    refine ⟨trimBlanks raw.toList, _, padded_trimBlanks _, ?_, known⟩
    rw [← toList_trim]
    exact sameLetters_asciiLower (trim raw)

theorem names_of_restyled {encoding : ExpiryEncoding} {raw raw' : String}
    (restyled : Restyled raw raw') : encoding.Names raw ↔ encoding.Names raw' := by
  rw [names_iff, names_iff, restyled.asciiLower_trim]

theorem ofText_eq_ok_iff {text : String} {encoding : ExpiryEncoding} :
    ofText text = .ok encoding ↔ encoding.Names text := by
  rw [names_iff, ofText]
  generalize asciiLower (trim text) = name
  constructor
  · intro known
    split at known
    next same =>
      cases known
      exact same ▸ .missing
    next =>
      split at known
      next empty =>
        cases known
        rcases empty with rfl | rfl
        · exact .empty
        · exact .emptyString
      next => cases known
  · intro known
    cases known <;> rfl

theorem ofText_of_unknown {text : String} (unknown : ∀ encoding : ExpiryEncoding,
    ¬ encoding.Names text) :
    ofText text = .error ("unknown expiry encoding: " ++ asciiLower (trim text)) := by
  cases read : ofText text with
  | ok encoding => exact absurd (ofText_eq_ok_iff.mp read) (unknown encoding)
  | error message =>
    rw [ofText] at read
    split at read
    next => cases read
    next =>
      split at read
      next => cases read
      next => exact read.symm

end ExpiryEncoding

namespace Config

theorem readLevel_eq_ok_iff {raw : String} {level : Level} :
    readLevel raw = .ok level ↔ level.Names raw := by
  rw [Level.names_iff, ← toList_trim, ← Level.ofText?_eq_some_iff]
  unfold readLevel
  cases Level.ofText? (trim raw) <;> simp

theorem readLevel_of_unknown {raw : String} (unknown : ∀ level : Level, ¬ level.Names raw) :
    readLevel raw = .error (ignoring logVariable raw "unknown log level") := by
  cases read : readLevel raw with
  | ok level => exact absurd (readLevel_eq_ok_iff.mp read) (unknown level)
  | error message =>
    unfold readLevel at read
    split at read
    next => cases read
    next => exact read.symm

theorem readExpiry_eq_ok_iff {raw : String} {encoding : ExpiryEncoding} :
    readExpiry raw = .ok encoding ↔ encoding.Names raw := by
  rw [← ExpiryEncoding.ofText_eq_ok_iff, readExpiry]
  cases ExpiryEncoding.ofText raw <;> simp [Except.mapError]

/-! A variable -/

section

variable {α : Type}

/-- What a variable was given, if it was given anything, names a value. -/
def Given (Names : α → String → Prop) : Option String → α → Prop
  | none, _ => False
  | some raw, a => Names a raw

/-- A value that was named, or else a default, and a message exactly if something was given that
names nothing. -/
structure Sets (Names : α → String → Prop) (default : α) (complaint : String → String)
    (given : Option String) (result : α × List String) : Prop where
  value : ∀ a, result.1 = a ↔ Given Names given a ∨ (a = default ∧ ∀ b, ¬ Given Names given b)
  silent : (given = none ∨ ∃ a, Given Names given a) → result.2 = []
  complains : ∀ raw, given = some raw → (∀ a, ¬ Names a raw) → result.2 = [complaint raw]

variable {Names : α → String → Prop} {default : α} {complaint : String → String}
  {read : String → Except String α}

theorem setting_sets (known : ∀ raw a, read raw = .ok a ↔ Names a raw)
    (unknown : ∀ raw, (∀ a, ¬ Names a raw) → read raw = .error (complaint raw))
    (given : Option String) : Sets Names default complaint given (setting default read given) := by
  cases given with
  | none =>
    refine ⟨fun a => ?_, fun _ => rfl, nofun⟩
    exact ⟨fun same => .inr ⟨same.symm, fun _ => id⟩, fun named => by
      rcases named with none | ⟨same, -⟩
      · exact none.elim
      · exact same.symm⟩
  | some raw =>
    cases result : read raw with
    | ok named =>
      have names : Names named raw := (known raw named).mp result
      have set : setting default read (some raw) = (named, []) := by rw [setting, result]
      rw [set]
      refine ⟨fun a => ⟨?_, ?_⟩, fun _ => rfl, ?_⟩
      · rintro rfl
        exact .inl names
      · rintro (other | ⟨-, none⟩)
        · exact Except.ok.inj (result.symm.trans ((known raw a).mpr other))
        · exact absurd names (none named)
      · rintro _ ⟨⟩ none
        exact absurd names (none named)
    | error message =>
      have nothing (a : α) : ¬ Names a raw := by
        rw [← known, result]
        exact nofun
      have set : setting default read (some raw) = (default, [message]) := by rw [setting, result]
      rw [set]
      refine ⟨fun a => ⟨?_, ?_⟩, ?_, ?_⟩
      · rintro rfl
        exact .inr ⟨rfl, nothing⟩
      · rintro (names | ⟨rfl, -⟩)
        · exact absurd names (nothing a)
        · rfl
      · rintro (absent | ⟨a, names⟩)
        · cases absent
        · exact absurd names (nothing a)
      · rintro _ ⟨⟩ none
        exact congrArg (fun m => [m]) (Except.error.inj (result.symm.trans (unknown raw none)))

/-- A restyled text sets what the text sets, if it names the same. -/
theorem Sets.value_eq {given given' : Option String} {result result' : α × List String}
    (sets : Sets Names default complaint given result)
    (sets' : Sets Names default complaint given' result')
    (names : ∀ {a raw raw'}, Restyled raw raw' → (Names a raw ↔ Names a raw'))
    (same : Option.Rel Restyled given given') : result'.1 = result.1 := by
  have alike (a : α) : Given Names given a ↔ Given Names given' a := by
    cases same with
    | none => exact Iff.rfl
    | some restyled => exact names restyled
  rw [sets'.value]
  simp only [← alike]
  exact (sets.value result.1).mp rfl

end

/-! The two variables -/

theorem ignoring_level (raw : String) : ignoring logVariable raw "unknown log level" =
    "ignoring KUBEBRIDGE_LOG=" ++ raw ++ ": unknown log level" := by
  unfold ignoring logVariable
  apply String.toList_inj.mp
  simp

theorem ignoring_expiry (raw : String) :
    ignoring expiryVariable raw ("unknown expiry encoding: " ++ asciiLower (trim raw)) =
      "ignoring KUBEBRIDGE_NOT_AFTER=" ++ raw ++ ": unknown expiry encoding: " ++
        asciiLower (trim raw) := by
  unfold ignoring expiryVariable
  apply String.toList_inj.mp
  simp

theorem readLevel_sets (given : Option String) :
    Sets Level.Names .info
      (fun raw => "ignoring KUBEBRIDGE_LOG=" ++ raw ++ ": unknown log level")
      given (setting .info readLevel given) := by
  refine setting_sets (fun _ _ => readLevel_eq_ok_iff) (fun raw unknown => ?_) given
  exact (readLevel_of_unknown unknown).trans (congrArg Except.error (ignoring_level raw))

theorem readExpiry_sets (given : Option String) :
    Sets ExpiryEncoding.Names .omitted
      (fun raw => "ignoring KUBEBRIDGE_NOT_AFTER=" ++ raw ++ ": unknown expiry encoding: " ++
        asciiLower (trim raw))
      given (setting .omitted readExpiry given) := by
  refine setting_sets (fun _ _ => readExpiry_eq_ok_iff) (fun raw unknown => ?_) given
  exact (congrArg (Except.mapError _) (ExpiryEncoding.ofText_of_unknown unknown)).trans
    (congrArg Except.error (ignoring_expiry raw))

/-- What the two variables set. Each is read by a function of its own text alone: a level if the
text, trimmed, is a numeral or a name of it, an encoding if the text is a word for it. Whatever else
was given is quoted in one message, about the level first. Blanks around the texts and the case of
their letters have no part in the configuration. -/
theorem ofLookup_exact :
    ∃ (log : Option String → Level × List String)
      (expiry : Option String → ExpiryEncoding × List String),
      (∀ given, Sets Level.Names .info
        (fun raw => "ignoring KUBEBRIDGE_LOG=" ++ raw ++ ": unknown log level") given (log given)) ∧
      (∀ given, Sets ExpiryEncoding.Names .omitted
        (fun raw => "ignoring KUBEBRIDGE_NOT_AFTER=" ++ raw ++ ": unknown expiry encoding: " ++
          asciiLower (trim raw)) given (expiry given)) ∧
      (∀ lookup, ofLookup lookup =
        ({ logLevel := (log (lookup "KUBEBRIDGE_LOG")).1,
           expiry := (expiry (lookup "KUBEBRIDGE_NOT_AFTER")).1 },
          (log (lookup "KUBEBRIDGE_LOG")).2 ++ (expiry (lookup "KUBEBRIDGE_NOT_AFTER")).2)) ∧
      ∀ lookup other : String → Option String,
        Option.Rel Restyled (lookup "KUBEBRIDGE_LOG") (other "KUBEBRIDGE_LOG") →
        Option.Rel Restyled (lookup "KUBEBRIDGE_NOT_AFTER") (other "KUBEBRIDGE_NOT_AFTER") →
          (ofLookup other).1 = (ofLookup lookup).1 := by
  refine ⟨_, _, readLevel_sets, readExpiry_sets, fun _ => rfl, ?_⟩
  intro lookup other log expiry
  have level := (readLevel_sets _).value_eq (readLevel_sets _) Level.names_of_restyled log
  have encoding := (readExpiry_sets _).value_eq (readExpiry_sets _)
    ExpiryEncoding.names_of_restyled expiry
  exact congrArg₂ Config.mk level encoding

/-- Both variables are given. -/
def bothGiven (log expiry : String) (key : String) : Option String :=
  if key = logVariable then some log else if key = expiryVariable then some expiry else none

theorem restyled_debug : Restyled "debug" "\u00A0 DeBUG\t" :=
  ⟨"DeBUG".toList, ⟨[Char.ofNat 0xA0, ' '], ['\t'], List.all_eq_true.mp rfl, List.all_eq_true.mp rfl, rfl⟩,
    sameLetters_iff.mpr (by decide)⟩

theorem restyled_empty : Restyled "empty-string" "Empty-String\n" :=
  ⟨"Empty-String".toList, ⟨[], ['\n'], nofun, List.all_eq_true.mp rfl, rfl⟩,
    sameLetters_iff.mpr (by decide)⟩

theorem bothGiven_restyled :
    (ofLookup (bothGiven "\u00A0 DeBUG\t" "Empty-String\n")).1 =
        (ofLookup (bothGiven "debug" "empty-string")).1 ∧
      (ofLookup (bothGiven "debug" "empty-string")).1 =
        { logLevel := .debug, expiry := .emptyText } := by
  obtain ⟨log, expiry, levels, encodings, read, alike⟩ := ofLookup_exact
  refine ⟨alike (bothGiven "debug" "empty-string") (bothGiven "\u00A0 DeBUG\t" "Empty-String\n")
    (.some restyled_debug) (.some restyled_empty), ?_⟩
  have level : Level.Names .debug "debug" :=
    Level.names_iff.mpr (.name (sameLetters_iff.mpr (by decide)))
  have encoding : ExpiryEncoding.Names .emptyText "empty-string" :=
    ExpiryEncoding.names_iff.mpr .emptyString
  rw [read]
  exact congrArg₂ Config.mk (((levels (some "debug")).value _).mpr (.inl level))
    (((encodings (some "empty-string")).value _).mpr (.inl encoding))

end Config

end AdmissionGuest
