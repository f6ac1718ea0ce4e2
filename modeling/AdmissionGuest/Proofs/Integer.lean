import AdmissionGuest.Capability.Certificate
import AdmissionGuest.Proofs.Manifest.Integer
/-!
The integers of all documents: the code of a verdict, the schema version of a manifest or an index,
the size of a descriptor and the bytes of a certificate. They are what the digits say, or they are
not taken at all.
-/

namespace AdmissionGuest

open Shaped Spelling OciManifestResponse

/-! Where the integers are -/

/-- The fields that are integers, with their widths. -/
def integerFields : List (Shape × String × Width) :=
  [(shape ValidationResponse, "code", .u16), (shape ImageManifest, "schemaVersion", .u32),
    (shape ImageIndex, "schemaVersion", .u32), (shape Descriptor, "size", .i64)]

section Leads

variable {hole : Member Unit} (inside : List Blank) (before after : List (Member Spelling))

theorem leads_of_find? {noun name : String} {fields : Fields} {s : Shape} {presence : Presence}
    (known : fields.find? name = some (⟨name, presence, []⟩, s))
    (named : textOf hole.name = .ok name) :
    Shape.Leads (.record noun fields) [.member inside before hole after] [.member name] s :=
  .member named known .here

/-- A field of an integer is read as one, wherever its member stands. -/
theorem leads_integerField : ∀ f ∈ integerFields, textOf hole.name = .ok f.2.1 →
    Shape.Leads f.1 [.member inside before hole after] [.member f.2.1] (.int f.2.2) := by
  simp only [integerFields, List.forall_mem_cons, List.not_mem_nil, false_imp_iff, implies_true,
    and_true]
  refine ⟨?_, ?_, ?_, ?_⟩ <;> exact leads_of_find? inside before after rfl

theorem proper_integerField : ∀ f ∈ integerFields, f.1.Proper := by decide

/-- Every byte of a certificate is read as an integer. -/
theorem leads_data (named : textOf hole.name = .ok "data") (inside' : List Blank)
    (items items' : List (Item Spelling)) (byte : Item Unit) :
    Shape.Leads (shape Certificate)
      [.member inside before hole after, .item inside' items byte items']
      [.member "data", .item items.length] (.int .u8) := by
  have known : (shape Certificate).fields.find? "data" =
    some (⟨"data", .required, []⟩, .list (.int .u8)) := rfl
  exact .member named known (.item .here)

end Leads

/-! What the integers are in values -/

theorem map_integer_iff {width : Width} {x : Option (Shape.int width).Val} {n : Int} :
    x.map (Shape.int width).json = some (.number (.int n)) ↔
      ∃ w, x = some w ∧ width.toInt w = n := by
  rw [Option.map_eq_some_iff]
  exact exists_congr fun w => and_congr_right fun _ =>
    ⟨fun same => Number.int.inj (Json.number.inj same), fun same => same ▸ rfl⟩

section Fields

variable {noun : String} {fields : Fields} {width : Width} {name : String} {v : fields.Val}
  (proper : (Shape.record noun fields).Proper) {n : Int}

include proper

theorem follow?_integer {x : Option width.Val} (gives : fields.Gives (.int width) name x v) :
    ((Shape.record noun fields).json v).follow? [.member name] = some (.number (.int n)) ↔
      ∃ w, x = some w ∧ width.toInt w = n := by
  rw [Shape.follow?_member proper gives]
  exact map_integer_iff

theorem follow?_integer_some {w : width.Val} (gives : fields.Gives (.int width) name (some w) v) :
    ((Shape.record noun fields).json v).follow? [.member name] = some (.number (.int n)) ↔
      width.toInt w = n :=
  (follow?_integer proper gives).trans
    ⟨fun ⟨_, same, value⟩ => Option.some.inj same ▸ value, fun value => ⟨w, rfl, value⟩⟩

end Fields

theorem ValidationResponse.follow?_code {r : ValidationResponse} {n : Int} :
    (Shaped.json r).follow? [.member "code"] = some (.number (.int n)) ↔
      ∃ code, r.code = some code ∧ (code.toNat : Int) = n :=
  follow?_integer (by decide) (.there (.there (.here rfl)))

theorem ImageManifest.follow?_schemaVersion {m : ImageManifest} {n : Int} :
    (Shaped.json m).follow? [.member "schemaVersion"] = some (.number (.int n)) ↔
      (m.schemaVersion.toNat : Int) = n :=
  follow?_integer_some (by decide) (.here rfl)

theorem ImageIndex.follow?_schemaVersion {i : ImageIndex} {n : Int} :
    (Shaped.json i).follow? [.member "schemaVersion"] = some (.number (.int n)) ↔
      (i.schemaVersion.toNat : Int) = n :=
  follow?_integer_some (by decide) (.here rfl)

theorem Descriptor.follow?_size {d : Descriptor} {n : Int} :
    (Shaped.json d).follow? [.member "size"] = some (.number (.int n)) ↔ d.size.toInt = n :=
  follow?_integer_some (by decide) (.there (.there (.here rfl)))

theorem Certificate.follow?_data {c : Certificate} {index : Nat} {n : Int} :
    (Shaped.json c).follow? [.member "data", .item index] = some (.number (.int n)) ↔
      ∃ byte, c.data[index]? = some byte ∧ (byte.toNat : Int) = n := by
  have proper : (shape Certificate).Proper := by decide
  have data : (Shaped.json c).follow? [.member "data"] =
      some (.list (c.data.map (Shape.int .u8).json)) :=
    Shape.follow?_member proper (.there (.here rfl))
  have item : (Json.list (c.data.map (Shape.int .u8).json)).follow? [.item index] =
      (c.data[index]?).map (Shape.int .u8).json :=
    Shape.follow?_item
  rw [← List.singleton_append, Json.follow?_append, data, Option.bind_some, item]
  exact map_integer_iff

/-! What is made of an integer -/

/-- What is decoded of documents that have a numeral for an integer in one place: something, if the
integer fits and the document is not at fault elsewhere; and then that integer. -/
structure TakesInteger {α : Type} [Shaped α] (decodes : Spelling → α → Prop) (width : Width)
    (path : List Step) (numeral : Numeral) (n : Int) : Prop where
  same : ∀ a, decodes (.number numeral) a →
    width.Fits n ∧ (Shaped.json a).follow? path = some (.number (.int n))
  iff_fits : ∀ d a, d ≠ .null → decodes d a →
    ((∃ b, decodes (.number numeral) b) ↔ width.Fits n)

section Takes

variable {place : List Layer} {path : List Step} {width : Width} {numeral : Numeral} {n : Int}
  (writes : numeral.Writes n) (before after : List Blank)

include writes

theorem decode_takes {α : Type} [Named α] [Shaped α] (proper : (shape α).Proper)
    (leads : Shape.Leads (shape α) place path (.int width)) :
    TakesInteger (fun d (a : α) => decode (document before (fill place d) after) = .ok a)
      width path numeral n where
  same _ := decode_integer proper leads writes before after
  iff_fits _ _ there decoded :=
    ⟨fun ⟨_, decoded⟩ => (decode_integer proper leads writes before after decoded).1,
      integer_decodable proper leads writes before after there decoded⟩

theorem validation_takes (leads : Shape.Leads (shape ValidationResponse) place path (.int width)) :
    TakesInteger (fun d r => decode (document before (fill place d) after) =
      .ok (PolicyResponse.validation r)) width path numeral n where
  same _ := validation_integer leads writes before after
  iff_fits _ _ there decoded :=
    ⟨fun ⟨_, decoded⟩ => (validation_integer leads writes before after decoded).1,
      integer_validation leads writes before after there decoded⟩

/-- A document with an integer that does not fit is not decoded. -/
theorem decode_misfit {α : Type} [Named α] [Shaped α] (proper : (shape α).Proper)
    (leads : Shape.Leads (shape α) place path (.int width)) (misfit : ¬ width.Fits n) :
    ∃ e, (decode (document before (fill place (.number numeral)) after) : Except Error α) =
      .error e :=
  error_of_not_decoded fun _ decoded =>
    misfit (decode_integer proper leads writes before after decoded).1

end Takes

/-- Every integer has a numeral without leading zeros. Wherever a document has that numeral for a
field of some width, it is decoded only if the integer fits the width, and then to just that integer,
which is written with the same digits again; otherwise it is not decoded, and an answer is no
verdict on a request. A reply of a registry is classified as it is with any other integer there, but
is known by its media type alone if the integer does not fit; it is rejected if the numeral is not
even held as a value, which is the case beyond the range of a double. -/
theorem integers_exact :
    (∀ n : Int, ∃ numeral : Numeral, numeral.Writes n) ∧
    (∀ n : Int, (Width.u8.Fits n ↔ 0 ≤ n ∧ n < 2 ^ 8) ∧ (Width.u16.Fits n ↔ 0 ≤ n ∧ n < 2 ^ 16) ∧
      (Width.u32.Fits n ↔ 0 ≤ n ∧ n < 2 ^ 32) ∧ (Width.i64.Fits n ↔ -2 ^ 63 ≤ n ∧ n < 2 ^ 63)) ∧
    (∀ f ∈ integerFields, f.1.Proper) ∧ (shape Certificate).Proper ∧
    (∀ (hole : Member Unit) (inside : List Blank) (before after : List (Member Spelling)),
      (∀ f ∈ integerFields, textOf hole.name = .ok f.2.1 →
        Shape.Leads f.1 [.member inside before hole after] [.member f.2.1] (.int f.2.2)) ∧
      (textOf hole.name = .ok "data" → ∀ inside' items byte items',
        Shape.Leads (shape Certificate)
          [.member inside before hole after, .item inside' items byte items']
          [.member "data", .item items.length] (.int .u8))) ∧
    (∀ n : Int,
      (∀ r : ValidationResponse, (Shaped.json r).follow? [.member "code"] =
        some (.number (.int n)) ↔ ∃ code, r.code = some code ∧ (code.toNat : Int) = n) ∧
      (∀ m : ImageManifest, (Shaped.json m).follow? [.member "schemaVersion"] =
        some (.number (.int n)) ↔ (m.schemaVersion.toNat : Int) = n) ∧
      (∀ i : ImageIndex, (Shaped.json i).follow? [.member "schemaVersion"] =
        some (.number (.int n)) ↔ (i.schemaVersion.toNat : Int) = n) ∧
      (∀ d : Descriptor, (Shaped.json d).follow? [.member "size"] =
        some (.number (.int n)) ↔ d.size.toInt = n) ∧
      (∀ (c : Certificate) (index : Nat), (Shaped.json c).follow? [.member "data", .item index] =
        some (.number (.int n)) ↔ ∃ byte, c.data[index]? = some byte ∧ (byte.toNat : Int) = n)) ∧
    ∀ (numeral : Numeral) (n : Int), numeral.Writes n →
      (Json.number (.int n)).write = numeral.bytes ∧
      (n.natAbs ≤ 1797693134862315 * Binary64.pow10 293 → numeral.Held) ∧
      (1797693134862317 * Binary64.pow10 293 ≤ n.natAbs → ¬ numeral.Held) ∧
      ∀ before after : List Blank,
        (∀ (α : Type) [Named α] [Shaped α], (shape α).Proper → ∀ place path width,
          Shape.Leads (shape α) place path (.int width) →
          TakesInteger (fun d (a : α) => decode (document before (fill place d) after) = .ok a)
            width path numeral n ∧
          (∀ a : α, encode a = .ok (Shaped.json a).write) ∧
          (¬ width.Fits n → ∃ e,
            (decode (document before (fill place (.number numeral)) after) : Except Error α) =
              .error e)) ∧
        (∀ place path width, Shape.Leads (shape ValidationResponse) place path (.int width) →
          TakesInteger (fun d r => decode (document before (fill place d) after) =
            .ok (PolicyResponse.validation r)) width path numeral n) ∧
        (numeral.Held → ∀ s f place steps path width d response log,
          Shape.Leads s place path (.int width) → (response.kind, s) ∈ wrappers →
          Way (f :: place) (.member response.kind :: steps) → d ≠ .null →
          classifyReply (document before (fill (f :: place) d) after) = .ok (response, log) →
          ∃ new, classifyReply (document before (fill (f :: place) (.number numeral)) after) =
            .ok new ∧ Reclassifies width path n (response, log) new) ∧
        (¬ numeral.Held → ∀ place,
          classifyReply (document before (fill place (.number numeral)) after) =
            .error rejected) := by
  refine ⟨exists_writes, fun n => ?_, proper_integerField, by decide,
    fun hole inside before after => ⟨?_, ?_⟩, fun n => ?_, ?_⟩
  · simp only [Width.Fits, Width.least, Width.greatest]
    omega
  · exact leads_integerField inside before after
  · exact fun named inside' items byte items' =>
      leads_data inside before after named inside' items items' byte
  · exact ⟨fun _ => ValidationResponse.follow?_code, fun _ => ImageManifest.follow?_schemaVersion,
      fun _ => ImageIndex.follow?_schemaVersion, fun _ => Descriptor.follow?_size,
      fun _ _ => Certificate.follow?_data⟩
  · intro numeral n writes
    refine ⟨writes.symm, fun bound => held_iff.mpr (numberOf_held writes bound),
      fun bound held => ?_, fun before after => ⟨?_, ?_, ?_, ?_⟩⟩
    · obtain ⟨x, held⟩ := held_iff.mp held
      exact numberOf_beyond writes bound x held
    · intro α _ _ proper place path width leads
      exact ⟨decode_takes writes before after proper leads, encode_shaped,
        decode_misfit writes before after proper leads⟩
    · exact fun place path width leads => validation_takes writes before after leads
    · intro held s f place steps path width d response log leads wrapper way there classified
      exact classifyReply_integer before after leads writes held wrapper way there classified
    · exact fun unheld place => classifyReply_not_held before after unheld place

/-! Integers at the limits of their widths, and one that is beyond the range of a double -/

open ValidationRequest (sampleMember sampleText)

def sampleHole (name : String) : Member Unit := { name := marks name, value := () }

def sampleVerdict : Layer :=
  .member [] [sampleMember "accepted" (.flag false)] (sampleHole "code") []

theorem leads_sampleVerdict :
    Shape.Leads (shape ValidationResponse) [sampleVerdict] [.member "code"] (.int .u16) :=
  leads_integerField [] _ _ _ (.head _) (textOf_marks _)

def sampleWrapper : Layer := .member [] [] (sampleHole "index") []

def sampleVersion : Layer :=
  .member [] [sampleText "mediaType" MediaType.ociImageIndex] (sampleHole "schemaVersion") []

theorem leads_sampleVersion :
    Shape.Leads (shape ImageIndex) [sampleVersion] [.member "schemaVersion"] (.int .u32) :=
  leads_integerField [] _ _ _ (.tail _ (.tail _ (.head _))) (textOf_marks _)

theorem way_sampleVersion :
    Way [sampleWrapper, sampleVersion] [.member "index", .member "schemaVersion"] :=
  .member (textOf_marks _) nofun (.member (textOf_marks _) nofun .here)

theorem sampleVersion_whole :
    classifyReply (document []
        (fill [sampleWrapper, sampleVersion] (.number { integral := .zero })) []) =
      .ok (.index (ImageIndex.unknown MediaType.ociImageIndex), []) := by
  have decoded : decode (document []
      (fill [sampleWrapper, sampleVersion] (.number { integral := .zero })) []) =
    .ok (Value.ofJson (wrapped "index" (.object [("mediaType", .text MediaType.ociImageIndex),
      ("schemaVersion", .number (.int 0))]))) := rfl
  exact classifyReply_ok_iff.mpr ⟨_, decoded, rfl⟩

theorem sample_integers :
    (∃ numeral : Numeral, numeral.Writes 65535 ∧ ∃ r code,
        decode (document [] (fill [sampleVerdict] (.number numeral)) []) =
          .ok (PolicyResponse.validation r) ∧ r.code = some code ∧ (code.toNat : Int) = 65535) ∧
      (∃ numeral : Numeral, numeral.Writes 65536 ∧
        ∀ r, decode (document [] (fill [sampleVerdict] (.number numeral)) []) ≠
          .ok (PolicyResponse.validation r)) ∧
      (∃ numeral : Numeral, numeral.Writes 4294967296 ∧ ∃ log, classifyReply
        (document [] (fill [sampleWrapper, sampleVersion] (.number numeral)) []) =
          .ok (.index (ImageIndex.unknown MediaType.ociImageIndex), log)) ∧
      ∃ numeral : Numeral, numeral.Writes (Binary64.pow10 309) ∧ classifyReply
        (document [] (fill [sampleWrapper, sampleVersion] (.number numeral)) []) =
          .error rejected := by
  obtain ⟨numerals, _, _, _, _, values, exact⟩ := integers_exact
  obtain ⟨inside, insideWrites⟩ := numerals 65535
  obtain ⟨outside, outsideWrites⟩ := numerals 65536
  obtain ⟨great, greatWrites⟩ := numerals 4294967296
  obtain ⟨huge, hugeWrites⟩ := numerals (Binary64.pow10 309)
  refine ⟨⟨inside, insideWrites, ?_⟩, ⟨outside, outsideWrites, fun r decoded => ?_⟩,
    ⟨great, greatWrites, ?_⟩, huge, hugeWrites, ?_⟩
  · obtain ⟨_, _, _, made⟩ := exact _ _ insideWrites
    have takes := (made [] []).2.1 _ _ _ leads_sampleVerdict
    have other : decode (document [] (fill [sampleVerdict] (.number { integral := .zero })) []) =
      .ok (PolicyResponse.validation { accepted := false, code := some 0 }) := rfl
    obtain ⟨r, decoded⟩ := (takes.iff_fits _ _ number_ne_null other).mpr (by decide)
    obtain ⟨code, same, value⟩ := ((values _).1 r).mp (takes.same r decoded).2
    exact ⟨r, code, decoded, same, value⟩
  · obtain ⟨_, _, _, made⟩ := exact _ _ outsideWrites
    have takes := (made [] []).2.1 _ _ _ leads_sampleVerdict
    exact absurd (takes.same r decoded).1 (by decide)
  · obtain ⟨_, held, _, made⟩ := exact _ _ greatWrites
    have replies := (made [] []).2.2.1 (held (by decide +kernel))
    obtain ⟨⟨_, log⟩, classified, again⟩ := replies _ _ _ _ _ _ _ _ _ leads_sampleVersion
      (.tail _ (.head _)) way_sampleVersion number_ne_null sampleVersion_whole
    cases (again.reduced (by decide)).1
    exact ⟨log, classified⟩
  · obtain ⟨_, _, unheld, made⟩ := exact _ _ hugeWrites
    have bound : 1797693134862317 * Binary64.pow10 293 ≤ Binary64.pow10 309 := by decide +kernel
    exact (made [] []).2.2.2 (unheld (by rwa [Int.natAbs_natCast])) _

end AdmissionGuest
