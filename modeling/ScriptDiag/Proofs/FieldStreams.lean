import Mathlib.Data.List.Induction
import ScriptDiag.Proofs.FieldsAt

/-!
# Streams of fields

Fields that are written one after another read back, each by the read of its type, and nothing is
left over. Of a stream that is cut, the fields in front of the cut read back still, and the first
one that extends past it is missed at the place where it starts (`fields_read_back`).

A number that is cut has too few bytes. A text that is cut, be it within the text or before the zero
byte, has no zero byte left to end it (`Field.read_of_cut`). No field of the stream is read into the
next one, since a text has no zero byte of its own (`Field.IsPlain`).
-/

namespace ScriptDiag

/-! ## One field -/

/-- Whether a field is one that reads back: a text must not contain a NUL. -/
def Field.IsPlain : Field → Prop
  | .text value => NulFree value
  | _ => True

instance (f : Field) : Decidable f.IsPlain := by
  cases f <;> unfold Field.IsPlain <;> infer_instance

theorem Field.reads {f : Field} (hf : f.IsPlain) : Decoder.Reads f.type.read f.encode f := by
  cases f with
  | u8 value => exact (Decoder.reads_u8 value).map Field.u8
  | u16 value => exact (Decoder.reads_u16 value).map Field.u16
  | i16 value => exact (Decoder.reads_i16 value).map Field.i16
  | u32 value => exact (Decoder.reads_u32 value).map Field.u32
  | i32 value => exact (Decoder.reads_i32 value).map Field.i32
  | text value => exact (Decoder.reads_text hf).map Field.text
  | raw bytes => exact (Decoder.reads_take bytes).map Field.raw

/-- A read that fails leaves the reader where it was, wherever that is, and tells the place. -/
theorem FieldType.read_error {t : FieldType} {r r' : Reader} {e : DecodeError}
    (h : t.read r = .error e r') :
    r' = r ∧ (e = .unexpectedEnd r.position ∨ e = .invalidUtf8 r.position) := by
  have hnumber : ∀ {width : Nat}, Decoder.number width r = .error e r' →
      r' = r ∧ (e = .unexpectedEnd r.position ∨ e = .invalidUtf8 r.position) :=
    fun h => (Decoder.take_error (Decoder.map_error h)).imp_right .inl
  cases t with
  | u8 => exact hnumber (Decoder.map_error (Decoder.map_error h))
  | u16 => exact hnumber (Decoder.map_error (Decoder.map_error h))
  | i16 => exact hnumber (Decoder.map_error (Decoder.map_error (Decoder.map_error h)))
  | u32 => exact hnumber (Decoder.map_error (Decoder.map_error h))
  | i32 => exact hnumber (Decoder.map_error (Decoder.map_error (Decoder.map_error h)))
  | text => exact Decoder.text_error (Decoder.map_error h)
  | raw length => exact (Decoder.take_error (Decoder.map_error h)).imp_right .inl

/-! ## A field that is cut -/

theorem Reader.between_eq_atOffset (before rest : Bytes) :
    between before rest = atOffset (before ++ rest) before.length := by
  simp [between, atOffset, seek, ofBytes]

section

variable {before part : Bytes}

theorem Decoder.Fixed.fails {α : Type} {read : Decoder α} {width : Nat} {value : Bytes → Nat → α}
    (h : Fixed read width value) (hpart : part.length < width) :
    read (.between before part) =
      .error (.unexpectedEnd before.length) (.between before part) := by
  have hlen : ¬ before.length + width ≤ (before ++ part).length := by
    rw [List.length_append]
    omega
  rw [Reader.between_eq_atOffset, h, if_neg hlen]

/-- A text is not found where no zero byte follows. -/
theorem Decoder.text_fails (hpart : (0 : UInt8) ∉ part) :
    text (.between before part) =
      .error (.unexpectedEnd before.length) (.between before part) := by
  have hne : ∀ b ∈ part, (b != 0) = true := fun b hb =>
    bne_iff_ne.mpr fun e => hpart (e ▸ hb)
  have hdrop : part.dropWhile (· != 0) = [] := List.dropWhile_eq_nil_iff.mpr hne
  simp only [text, Reader.between, hdrop]

/-- Of a field that is cut nothing is read. -/
theorem Field.read_of_cut {f : Field} (hf : f.IsPlain) (hpart : part <+: f.encode)
    (hlen : part.length < f.encode.length) :
    f.type.read (.between before part) =
      .error (.unexpectedEnd before.length) (.between before part) := by
  cases f with
  | u8 value => exact (Decoder.fixed_u8.map Field.u8).fails hlen
  | u16 value => exact (Decoder.fixed_u16.map Field.u16).fails hlen
  | i16 value => exact (Decoder.fixed_i16.map Field.i16).fails hlen
  | u32 value => exact (Decoder.fixed_u32.map Field.u32).fails hlen
  | i32 value => exact (Decoder.fixed_i32.map Field.i32).fails hlen
  | text value =>
      have hbegins : part <+: utf8 value :=
        (List.prefix_concat_iff.mp hpart).resolve_left fun heq => by
          rw [heq] at hlen
          exact Nat.lt_irrefl _ hlen
      have hzero : (0 : UInt8) ∉ part := fun hmem => hf.zero_not_mem (hbegins.subset hmem)
      exact (Act.map_apply _ _ _).trans (by rw [Decoder.text_fails hzero])
  | raw bytes => exact ((Decoder.fixed_take bytes.length).map Field.raw).fails hlen

end

/-! ## Many fields -/

/-- Fields as bytes, one after another. -/
def encodeFields (fields : List Field) : Bytes :=
  fields.flatMap Field.encode

/-- What is written field by field is there in the end, and nothing else. -/
theorem foldlM_run?_field (fields : List Field) (bytes : Bytes) :
    (fields.map WriteStep.field).foldlM WriteStep.run? bytes =
      some (bytes ++ encodeFields fields) := by
  induction fields generalizing bytes with
  | nil => exact congrArg some (List.append_nil bytes).symm
  | cons f fields ih =>
      rw [encodeFields, List.flatMap_cons, ← List.append_assoc]
      exact ih (bytes ++ f.encode)

theorem reads_mapM {fields : List Field} (hfields : ∀ f ∈ fields, f.IsPlain) :
    Decoder.Reads ((fields.map Field.type).mapM FieldType.read) (encodeFields fields) fields := by
  induction fields with
  | nil => exact Decoder.reads_pure []
  | cons f fields ih =>
      obtain ⟨hf, hfields⟩ := List.forall_mem_cons.mp hfields
      rw [List.map_cons, List.mapM_cons, encodeFields, List.flatMap_cons]
      exact (Field.reads hf).bind ((ih hfields).bind_pure fun fields => f :: fields)

theorem encodeFields_append (before after : List Field) :
    encodeFields (before ++ after) = encodeFields before ++ encodeFields after :=
  List.flatMap_append

/-- Some field is the first to extend past the cut. -/
theorem exists_cut {fields : List Field} {cut : Nat} (hcut : cut < (encodeFields fields).length) :
    ∃ before f after, fields = before ++ f :: after ∧ (encodeFields before).length ≤ cut ∧
      cut < (encodeFields (before ++ [f])).length := by
  induction fields using List.reverseRecOn with
  | nil => exact absurd hcut (Nat.not_lt_zero _)
  | append_singleton fields f ih =>
      by_cases h : cut < (encodeFields fields).length
      · obtain ⟨before, g, after, rfl, hle, hlt⟩ := ih h
        exact ⟨before, g, after ++ [f], by simp, hle, hlt⟩
      · exact ⟨fields, f, [], rfl, Nat.not_lt.mp h, hcut⟩

/-- What is left in front of the cut: the fields before the one that is cut, and a part of that. -/
theorem take_encodeFields {before : List Field} {f : Field} {cut : Nat} (after : List Field)
    (hle : (encodeFields before).length ≤ cut)
    (hlt : cut < (encodeFields (before ++ [f])).length) :
    ∃ part, (encodeFields (before ++ f :: after)).take cut = encodeFields before ++ part ∧
      part <+: f.encode ∧ part.length < f.encode.length := by
  have hone : encodeFields [f] = f.encode := List.append_nil _
  have hmany : encodeFields (f :: after) = f.encode ++ encodeFields after := List.flatMap_cons
  rw [encodeFields_append, hone, List.length_append] at hlt
  have hshort : cut - (encodeFields before).length ≤ f.encode.length := by omega
  refine ⟨f.encode.take (cut - (encodeFields before).length), ?_, List.take_prefix _ _, ?_⟩
  · rw [encodeFields_append, hmany, List.take_append, List.take_of_length_le hle,
      List.take_append_of_le_length hshort]
  · rw [List.length_take]
    omega

/-- **Fields read back, also from a stream that is cut.** What was written field by field is read by
the types of the fields, and nothing remains. If the stream is cut, the fields up to the first one
that extends past the cut are read, and the read of that one fails with the place where it starts. A
read that fails, of whatever type and wherever the reader stands, does not move the reader. -/
theorem fields_read_back {fields : List Field} (hfields : ∀ f ∈ fields, f.IsPlain) :
    (∃ bytes, (fields.map WriteStep.field).foldlM WriteStep.run? [] = some bytes ∧
      (∃ r, (fields.map Field.type).mapM FieldType.read (.ofBytes bytes) = .ok fields r ∧
        r.remaining = 0) ∧
      ∀ cut < bytes.length, ∃ before f after r, fields = before ++ f :: after ∧
        (encodeFields before).length ≤ cut ∧ cut < (encodeFields (before ++ [f])).length ∧
        (before.map Field.type).mapM FieldType.read (.ofBytes (bytes.take cut)) = .ok before r ∧
        r.position = (encodeFields before).length ∧
        f.type.read r = .error (.unexpectedEnd (encodeFields before).length) r) ∧
      ∀ (t : FieldType) r e r', t.read r = .error e r' →
        r' = r ∧ (e = .unexpectedEnd r.position ∨ e = .invalidUtf8 r.position) := by
  refine ⟨⟨encodeFields fields, foldlM_run?_field fields [], ?_, fun cut hcut => ?_⟩,
    fun t r e r' h => FieldType.read_error h⟩
  · have hread := reads_mapM hfields [] []
    rw [List.append_nil] at hread
    have hlen := congrArg List.length (List.append_nil (encodeFields fields))
    exact ⟨_, hread, Nat.sub_eq_zero_of_le (Nat.le_of_eq hlen)⟩
  · obtain ⟨before, f, after, rfl, hle, hlt⟩ := exists_cut hcut
    obtain ⟨part, htake, hpart, hlen⟩ := take_encodeFields after hle hlt
    have hbefore : ∀ g ∈ before, g.IsPlain := fun g hg =>
      hfields g (List.mem_append_left _ hg)
    have hf : f.IsPlain := hfields f (List.mem_append_right _ List.mem_cons_self)
    refine ⟨before, f, after, .between (encodeFields before) part, rfl, hle, hlt, ?_, rfl,
      Field.read_of_cut hf hpart hlen⟩
    rw [htake]
    exact reads_mapM hbefore [] part

/-- Fields of several types, with a text in the bytes from 2 to 6 and zero bytes elsewhere. -/
def mixedFields : List Field :=
  [.i16 (-2), .text "main", .raw [7, 0, 7], .u32 0xDEAD, .u8 0]

/-- The stream of the mixed fields reads back. Cut at 6, between the text and its zero byte, it does
so up to some field that extends past the cut. -/
theorem mixedFields_read_back :
    (∀ f ∈ mixedFields, f.IsPlain) ∧
      ∃ bytes, (mixedFields.map WriteStep.field).foldlM WriteStep.run? [] = some bytes ∧
        bytes = [254, 255, 109, 97, 105, 110, 0, 7, 0, 7, 173, 222, 0, 0, 0] ∧
        (∃ r, (mixedFields.map Field.type).mapM FieldType.read (.ofBytes bytes) =
          .ok mixedFields r ∧ r.remaining = 0) ∧
        ∃ before f after r, mixedFields = before ++ f :: after ∧
          (encodeFields before).length ≤ 6 ∧ 6 < (encodeFields (before ++ [f])).length ∧
          (before.map Field.type).mapM FieldType.read (.ofBytes (bytes.take 6)) = .ok before r ∧
          f.type.read r = .error (.unexpectedEnd (encodeFields before).length) r := by
  have hplain : ∀ f ∈ mixedFields, f.IsPlain := by decide +kernel
  obtain ⟨⟨bytes, hbytes, hread, hcut⟩, -⟩ := fields_read_back hplain
  have hvalue : (mixedFields.map WriteStep.field).foldlM WriteStep.run? [] =
      some [254, 255, 109, 97, 105, 110, 0, 7, 0, 7, 173, 222, 0, 0, 0] := by decide +kernel
  obtain rfl := Option.some.inj (hvalue.symm.trans hbytes)
  obtain ⟨before, f, after, r, heq, hle, hlt, hbefore, -, hfails⟩ := hcut 6 (by decide)
  exact ⟨hplain, _, hbytes, rfl, hread, before, f, after, r, heq, hle, hlt, hbefore, hfails⟩

end ScriptDiag
