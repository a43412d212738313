import Catga.Codec.Format
import Mathlib.Data.List.FinRange
import Mathlib.Data.List.Sort

/-!
# Types without recursion

The types that are built from primitives, options, boxes, tuples and collections by deriving structs
and tagged unions, nested to any depth but never inside themselves.  Every such type is read back
from the front of any string that begins with one of its writings, and the writings are prefix free.
-/

namespace Catga.Codec

open Metered Format List

variable {n : Nat} (orders : Fin n → Option Nat)

def fieldOrder (field : Fin n) : Nat := (orders field).getD field

/-- `prepare_ordered_fields`: a stable sort by the keys. -/
def prepareOrderedFields : List (Fin n) :=
  (List.finRange n).insertionSort fun first second =>
    fieldOrder orders first ≤ fieldOrder orders second

lemma mem_prepareOrderedFields (field : Fin n) : field ∈ prepareOrderedFields orders :=
  (perm_insertionSort _ _).mem_iff.mpr (mem_finRange field)

namespace Format

variable {bytes : List UInt8}

section

variable {α : Fin n → Type} (formats : ∀ field, Format (α field))

def serializeFields (value : ∀ field, α field) : List (Fin n) → Except MemoryPackError (List UInt8)
  | [] => .ok []
  | field :: order => do
      let bytes ← (formats field).serialize (value field)
      let rest ← serializeFields value order
      pure (bytes ++ rest)

/-- Fields read so far, and one more. -/
def assign {order : List (Fin n)} (field : Fin n) (value : α field)
    (values : ∀ other, other ∈ order → α other) (other : Fin n) (listed : other ∈ field :: order) :
    α other :=
  if same : other = field then same ▸ value
  else values other ((mem_cons.mp listed).resolve_left same)

/-- Read the fields in some order, each under its name. -/
def deserializeFields (limits : MemoryPackDecodeLimits) (remaining : Nat) :
    (order : List (Fin n)) → Reader (∀ field, field ∈ order → α field)
  | [] => pure fun _ listed => absurd listed not_mem_nil
  | field :: order => do
      let value ← (formats field).deserialize limits remaining
      let values ← deserializeFields limits remaining order
      pure (assign field value values)

def demandFields (value : ∀ field, α field) : List (Fin n) → Demand
  | [] => .none
  | field :: order => ((formats field).demand (value field)).both (demandFields value order)

def fields (order : List (Fin n)) (complete : ∀ field, field ∈ order) :
    Format (∀ field, α field) where
  serialize value := serializeFields formats value order
  deserialize limits remaining := do
    let values ← deserializeFields formats limits remaining order
    pure fun field => values field (complete field)
  size value := (order.map fun field => (formats field).size (value field)).sum
  demand value := demandFields formats value order

variable {formats} {order : List (Fin n)}

lemma assign_value (value : ∀ field, α field) (field : Fin n)
    (others : ∀ other, other ∈ order → α other) (others_eq : others = fun other _ => value other) :
    assign field (value field) others = fun other _ => value other := by
  subst others_eq
  funext other listed
  simp only [assign]
  split_ifs with same
  · subst same
    rfl
  · rfl

section

variable (lossless : ∀ field, (formats field).Lossless) {value : ∀ field, α field}
include lossless

lemma length_serializeFields (serialized : serializeFields formats value order = .ok bytes) :
    bytes.length = (order.map fun field => (formats field).size (value field)).sum := by
  induction order generalizing bytes with
  | nil =>
    cases serialized
    rfl
  | cons field order ih =>
    obtain ⟨header, rest, first_ok, rest_ok, rfl⟩ := append_eq_ok.mp serialized
    rw [length_append, (lossless field).length first_ok, ih rest_ok]
    rfl

lemma yields_fields (limits) (remaining : Nat)
    (serialized : serializeFields formats value order = .ok bytes) :
    Reads limits (deserializeFields formats limits remaining order)
      (pieceOf limits remaining bytes (fun field _ => value field)
        (demandFields formats value order)) := by
  induction order generalizing bytes with
  | nil =>
    cases serialized
    refine reads_free remaining ((Yields.pure _).congr rfl ?_ rfl Iff.rfl)
    funext field listed
    exact absurd listed not_mem_nil
  | cons field order ih =>
    obtain ⟨header, rest, first_ok, rest_ok, rfl⟩ := append_eq_ok.mp serialized
    have first := (lossless field).reads limits remaining first_ok
    have others := (ih rest_ok).map (assign field (value field))
    exact Yields.seq _ first others rfl (assign_value value field _ rfl).symm rfl
      Demand.within_both

lemma fields_lossless (order : List (Fin n)) (complete : ∀ field, field ∈ order) :
    (fields formats order complete).Lossless where
  length := fun serialized => length_serializeFields lossless serialized
  reads := by
    intro value bytes limits remaining serialized
    exact (yields_fields lossless limits remaining serialized).map
      fun values field => values field (complete field)

end

lemma serializeFields_inj (free : ∀ field, PrefixFree (formats field).Writes)
    {first second left right tail rest}
    (first_ok : serializeFields formats first order = .ok left)
    (second_ok : serializeFields formats second order = .ok right)
    (same : left ++ tail = right ++ rest) :
    (∀ field ∈ order, first field = second field) ∧ tail = rest := by
  induction order generalizing left right with
  | nil =>
    cases first_ok
    cases second_ok
    exact ⟨fun field listed => absurd listed not_mem_nil, same⟩
  | cons field order ih =>
    obtain ⟨header, others, header_ok, others_ok, rfl⟩ := append_eq_ok.mp first_ok
    obtain ⟨header', others', header_ok', others_ok', rfl⟩ := append_eq_ok.mp second_ok
    rw [append_assoc, append_assoc] at same
    obtain ⟨field_eq, rest_same⟩ := free field header_ok header_ok' same
    obtain ⟨others_eq, tail_eq⟩ := ih others_ok others_ok' rest_same
    exact ⟨forall_mem_cons.mpr ⟨field_eq, others_eq⟩, tail_eq⟩

lemma fields_prefixFree (free : ∀ field, PrefixFree (formats field).Writes) (order : List (Fin n))
    (complete : ∀ field, field ∈ order) : PrefixFree (fields formats order complete).Writes := by
  intro first second left right tail rest first_ok second_ok same
  obtain ⟨each, tail_eq⟩ := serializeFields_inj free first_ok second_ok same
  exact ⟨funext fun field => each field (complete field), tail_eq⟩

end

section

variable {α : Fin n → Type}

def union (name : String) (tags : Fin n → UInt8) (payloads : ∀ variant, Format (α variant)) :
    Format (Sigma α) where
  serialize value := do
    let bytes ← (payloads value.1).serialize value.2
    pure (tags value.1 :: bytes)
  deserialize limits remaining := do
    let tag ← readUnsigned 1
    match (List.finRange n).find? fun variant => (tags variant).toNat = tag with
    | some variant => do
        let inner ← (payloads variant).deserialize limits remaining
        pure ⟨variant, inner⟩
    | none => fail (.deserializationError s!"Unknown union tag {tag} for {name}")
  size value := 1 + (payloads value.1).size value.2
  demand value := (payloads value.1).demand value.2

variable {name : String} {tags : Fin n → UInt8} {payloads : ∀ variant, Format (α variant)}

lemma union_eq_ok {value} :
    (union name tags payloads).serialize value = .ok bytes ↔
      ∃ body, (payloads value.1).serialize value.2 = .ok body ∧ bytes = tags value.1 :: body :=
  framed_eq_ok (tags value.1 :: ·)

variable (distinct : Function.Injective tags)
include distinct

lemma find?_tag (variant : Fin n) :
    (List.finRange n).find? (fun other => (tags other).toNat = (tags variant).toNat) =
      some variant := by
  have found : ((List.finRange n).find? fun other =>
      (tags other).toNat = (tags variant).toNat).isSome := by
    rw [List.find?_isSome]
    exact ⟨variant, mem_finRange variant, by simp⟩
  obtain ⟨other, other_eq⟩ := Option.isSome_iff_exists.mp found
  have matched := List.find?_some other_eq
  have same : tags other = tags variant := UInt8.toNat_inj.mp (of_decide_eq_true matched)
  rw [other_eq, distinct same]

lemma union_lossless (lossless : ∀ variant, (payloads variant).Lossless) :
    (union name tags payloads).Lossless where
  length := by
    intro value bytes serialized
    obtain ⟨body, body_ok, rfl⟩ := union_eq_ok.mp serialized
    rw [length_cons, (lossless _).length body_ok, Nat.add_comm]
    rfl
  reads := by
    rintro ⟨variant, inner⟩ bytes limits remaining serialized
    obtain ⟨body, body_ok, rfl⟩ := union_eq_ok.mp serialized
    refine yields_then body (yields_readTag (tags variant)) ?_ rfl
    rw [find?_tag distinct variant]
    exact ((lossless variant).reads limits remaining body_ok).map (Sigma.mk variant)

lemma union_prefixFree (free : ∀ variant, PrefixFree (payloads variant).Writes) :
    PrefixFree (union name tags payloads).Writes := by
  rintro ⟨variant, inner⟩ ⟨other, payload⟩ left right tail rest first_ok second_ok same
  obtain ⟨body, body_ok, rfl⟩ := union_eq_ok.mp first_ok
  obtain ⟨body', body_ok', rfl⟩ := union_eq_ok.mp second_ok
  obtain ⟨tag_eq, bodies_eq⟩ := List.cons.inj same
  obtain rfl := distinct tag_eq
  obtain ⟨rfl, tail_eq⟩ := free variant body_ok body_ok' bodies_eq
  exact ⟨rfl, tail_eq⟩

end

section

variable {α : Type}

def widest : MemoryPackDecodeLimits where
  maxFrameBytes := 18446744073709551615
  maxAllocationBytes := 18446744073709551615
  maxStringBytes := 18446744073709551615
  maxCollectionItems := 18446744073709551615
  maxNestingDepth := 18446744073709551615
  nonzero := by decide
  string_le := by decide

lemma Lossless.prefixFree {format : Format α} (lossless : format.Lossless)
    (fits : ∀ value bytes, format.serialize value = .ok bytes → (format.demand value).Fits widest) :
    PrefixFree format.Writes := by
  let read (bytes : List UInt8) : Option (α × List UInt8) :=
    match format.deserialize widest widest.maxNestingDepth.toNat { rest := bytes, used := 0 } with
    | .ok (value, input) => some (value, input.rest)
    | .error _ => none
  refine PrefixFree.of_reader read fun value bytes rest serialized => ?_
  obtain ⟨within, allocation⟩ := fits value bytes serialized
  have accepted := (lossless.reads widest widest.maxNestingDepth.toNat serialized rest 0
    (Nat.zero_le _)).1 ⟨within, by simpa using allocation⟩
  simp only [pieceOf] at accepted
  simp [read, accepted]

lemma fits_none : Demand.none.Fits widest := by decide

lemma unit_prefixFree : PrefixFree unit.Writes := unit_lossless.prefixFree fun _ _ _ => fits_none

lemma bool_prefixFree : PrefixFree bool.Writes := bool_lossless.prefixFree fun _ _ _ => fits_none

lemma fixed_prefixFree (width : Nat) : PrefixFree (fixed width).Writes :=
  (fixed_lossless width).prefixFree fun _ _ _ => fits_none

lemma char_prefixFree : PrefixFree char.Writes := char_lossless.prefixFree fun _ _ _ => fits_none

lemma string_prefixFree : PrefixFree string.Writes := by
  refine string_lossless.prefixFree fun text bytes written => ?_
  have short : (utf8Bytes text).length < 2 ^ 31 := by
    obtain ⟨empty, -⟩ | ⟨-, short, -⟩ := writeString_eq_ok written
    · rw [empty]
      decide
    · exact short
  have bound : (utf8Bytes text).length ≤ 18446744073709551615 := by omega
  exact ⟨⟨bound, Nat.zero_le _, Nat.zero_le _⟩, bound⟩

/-- The writings of numbers of four bytes. -/
def WritesI32 (value : Int) (bytes : List UInt8) : Prop :=
  -2 ^ 31 ≤ value ∧ value < 2 ^ 31 ∧ bytes = writeI32 value

lemma writesI32_prefixFree : PrefixFree WritesI32 := by
  let read (bytes : List UInt8) : Option (Int × List UInt8) :=
    match readI32 { rest := bytes, used := 0 } with
    | .ok (value, input) => some (value, input.rest)
    | .error _ => none
  refine PrefixFree.of_reader read ?_
  rintro value bytes rest ⟨lower, upper, rfl⟩
  have accepted := (yields_readI32 lower upper rest 0 le_rfl).1 ⟨trivial, le_rfl⟩
  simp only [free] at accepted
  simp [read, accepted]

variable {item : Format α}

lemma serializeItems_prefixFree (free : PrefixFree item.Writes) (count : Nat) :
    PrefixFree fun (values : List α) bytes =>
      values.length = count ∧ item.serializeItems values = .ok bytes := by
  induction count with
  | zero =>
    rintro first second left right tail rest ⟨empty, first_ok⟩ ⟨empty', second_ok⟩ same
    obtain rfl := eq_nil_of_length_eq_zero empty
    obtain rfl := eq_nil_of_length_eq_zero empty'
    cases first_ok
    cases second_ok
    exact ⟨rfl, same⟩
  | succ count ih =>
    rintro first second left right tail rest ⟨long, first_ok⟩ ⟨long', second_ok⟩ same
    obtain ⟨value, values, rfl⟩ := exists_cons_of_length_eq_add_one long
    obtain ⟨value', values', rfl⟩ := exists_cons_of_length_eq_add_one long'
    obtain ⟨header, body, header_ok, body_ok, rfl⟩ := append_eq_ok.mp first_ok
    obtain ⟨header', body', header_ok', body_ok', rfl⟩ := append_eq_ok.mp second_ok
    rw [append_assoc, append_assoc] at same
    obtain ⟨rfl, bodies_eq⟩ := free header_ok header_ok' same
    obtain ⟨rfl, tail_eq⟩ :=
      ih ⟨Nat.succ.inj long, body_ok⟩ ⟨Nat.succ.inj long', body_ok'⟩ bodies_eq
    exact ⟨rfl, tail_eq⟩

lemma collection_prefixFree (free : PrefixFree item.Writes) :
    PrefixFree fun (values : List α) bytes => item.serializeCollection values = .ok bytes := by
  have keyed : PrefixFree fun (values : List α) bytes =>
      ∃ header body, WritesI32 (values.length : Int) header ∧
        item.serializeItems values = .ok body ∧ bytes = header ++ body := by
    refine PrefixFree.keyed writesI32_prefixFree fun length => ?_
    refine (serializeItems_prefixFree free length.toNat).mono ?_
    rintro values bytes ⟨length_eq, serialized⟩
    exact ⟨by omega, serialized⟩
  refine keyed.mono fun values bytes serialized => ?_
  obtain ⟨length_lt, body, body_ok, rfl⟩ := serializeCollection_eq_ok.mp serialized
  exact ⟨_, body, ⟨by omega, by omega, rfl⟩, body_ok, rfl⟩

lemma option_prefixFree (default : α) (free : PrefixFree item.Writes) :
    PrefixFree (option default item).Writes := by
  have keyed : PrefixFree fun (value : Option α) bytes =>
      ∃ header body, WritesI32 (if value.isSome then 1 else 0) header ∧
        item.serialize (value.getD default) = .ok body ∧ bytes = header ++ body := by
    refine PrefixFree.keyed writesI32_prefixFree fun flag => ?_
    rintro first second left right tail rest ⟨flag_first, first_ok⟩ ⟨flag_second, second_ok⟩ same
    obtain ⟨value_eq, tail_eq⟩ := free first_ok second_ok same
    refine ⟨?_, tail_eq⟩
    have flags_eq := flag_first.trans flag_second.symm
    cases first with
    | none =>
      cases second with
      | none => rfl
      | some => exact absurd flags_eq (by simp)
    | some =>
      cases second with
      | none => exact absurd flags_eq (by simp)
      | some => exact congrArg some value_eq
  refine keyed.mono fun value bytes serialized => ?_
  obtain ⟨body, body_ok, rfl⟩ := option_eq_ok.mp serialized
  refine ⟨_, body, ⟨?_, ?_, rfl⟩, body_ok, rfl⟩ <;> split <;> decide

lemma object_prefixFree (count : Nat) {fields : Format α} (free : PrefixFree fields.Writes) :
    PrefixFree (object count fields).Writes := by
  intro first second left right tail rest first_ok second_ok same
  obtain ⟨body, body_ok, rfl⟩ := object_eq_ok.mp first_ok
  obtain ⟨body', body_ok', rfl⟩ := object_eq_ok.mp second_ok
  exact free body_ok body_ok' (List.cons.inj same).2

end

end Format

/-- `resolve_union_tags`, after the variants with the given tags: the explicit tag of each variant
or its ordinal, without duplicates. -/
def resolveUnionTags (tags : List UInt8) : List (Option Nat) → Except String (List UInt8)
  | [] => .ok tags
  | some tag :: variants =>
    if 2 ^ 16 ≤ tag then .error "union tags must be integer literals in 0..=255"
    else if 255 < tag then .error "union tags must be in 0..=255"
    else if UInt8.ofNat tag ∈ tags then .error s!"duplicate union tag {tag}"
    else resolveUnionTags (tags ++ [UInt8.ofNat tag]) variants
  | none :: variants =>
    if 255 < tags.length then
      .error "union variants without an explicit tag must have an ordinal in 0..=255"
    else if UInt8.ofNat tags.length ∈ tags then .error s!"duplicate union tag {tags.length}"
    else resolveUnionTags (tags ++ [UInt8.ofNat tags.length]) variants

lemma nodup_of_resolveUnionTags {tags variants}
    {resolved} (distinct : tags.Nodup)
    (returned : resolveUnionTags tags variants = .ok resolved) : resolved.Nodup := by
  induction variants generalizing tags with
  | nil =>
    cases returned
    exact distinct
  | cons variant variants ih =>
    cases variant with
    | some tag =>
      simp only [resolveUnionTags] at returned
      split at returned
      · cases returned
      split at returned
      · cases returned
      split at returned
      · cases returned
      · rename_i fresh
        exact ih (concat_eq_append ▸ distinct.concat fresh) returned
    | none =>
      simp only [resolveUnionTags] at returned
      split at returned
      · cases returned
      split at returned
      · cases returned
      · rename_i fresh
        exact ih (concat_eq_append ▸ distinct.concat fresh) returned

/-- A type that does not contain itself.  A tuple or a struct is the function that gives the value
of each field, a union the pair of a variant and its payload. -/
inductive Shape : Type → Type 1 where
  | bool : Shape Bool
  /-- An integer of `width` bytes, signed or not, as its bits. -/
  | integer (width : Nat) : Shape (BitVec (8 * width))
  | char : Shape Char
  | string : Shape String
  | option {α : Type} (default : α) (item : Shape α) : Shape (Option α)
  | box {α : Type} (item : Shape α) : Shape α
  | tuple {n : Nat} {α : Fin n → Type} (items : ∀ field, Shape (α field)) :
      Shape (∀ field, α field)
  | vec {α : Type} (size : Nat) (item : Shape α) : Shape (List α)
  | vecDeque {α : Type} (size : Nat) (item : Shape α) : Shape (List α)
  | linkedList {α : Type} (item : Shape α) : Shape (List α)
  | unitStruct : Shape Unit
  /-- A derived struct that is a transparent wrapper of one `i32`. -/
  | transparentStruct : Shape (BitVec (8 * 4))
  | tupleStruct {n : Nat} {α : Fin n → Type} (count_le : n ≤ 255)
      (fields : ∀ field, Shape (α field)) : Shape (∀ field, α field)
  /-- A derived struct with named fields, each with its explicit order if it has one. -/
  | namedStruct {n : Nat} {α : Fin n → Type} (count_le : n ≤ 255) (orders : Fin n → Option Nat)
      (fields : ∀ field, Shape (α field)) : Shape (∀ field, α field)
  /-- A derived union, each variant with its explicit tag if it has one. -/
  | union {n : Nat} {α : Fin n → Type} (name : String) (explicit : Fin n → Option Nat)
      (tags : Fin n → UInt8)
      (resolved : resolveUnionTags [] (List.ofFn explicit) = .ok (List.ofFn tags))
      (payloads : ∀ variant, Shape (α variant)) : Shape (Sigma α)

namespace Shape

/-- The implementation of the codec's traits for a type. -/
def format : {α : Type} → Shape α → Format α
  | _, bool => .bool
  | _, integer width => .fixed width
  | _, char => .char
  | _, string => .string
  | _, option default item => .option default item.format
  | _, box item => item.format
  | _, tuple items => .fields (fun field => (items field).format) _ mem_finRange
  | _, vec size item => .vec size item.format
  | _, vecDeque size item => .vec size item.format
  | _, linkedList item => .linkedList item.format
  | _, unitStruct => .unit
  | _, transparentStruct => .fixed 4
  | _, @tupleStruct n _ _ fields =>
    .object n (.fields (fun field => (fields field).format) _ mem_finRange)
  | _, @namedStruct n _ _ orders fields =>
    .object n (.fields (fun field => (fields field).format) _ (mem_prepareOrderedFields orders))
  | _, union name _ tags _ payloads =>
    .union name tags fun variant => (payloads variant).format

lemma tags_injective {n} {explicit : Fin n → Option Nat} {tags : Fin n → UInt8}
    (resolved : resolveUnionTags [] (List.ofFn explicit) = .ok (List.ofFn tags)) :
    Function.Injective tags := nodup_ofFn.mp (nodup_of_resolveUnionTags nodup_nil resolved)

lemma lossless {α : Type} (shape : Shape α) : shape.format.Lossless := by
  induction shape with
  | bool => exact bool_lossless
  | integer width => exact fixed_lossless width
  | char => exact char_lossless
  | string => exact string_lossless
  | option default item ih => exact option_lossless default ih
  | box item ih => exact ih
  | tuple items ih => exact fields_lossless ih _ _
  | vec size item ih => exact vec_lossless size ih
  | vecDeque size item ih => exact vec_lossless size ih
  | linkedList item ih => exact linkedList_lossless ih
  | unitStruct => exact unit_lossless
  | transparentStruct => exact fixed_lossless 4
  | tupleStruct count_le fields ih | namedStruct count_le orders fields ih =>
    exact object_lossless count_le (fields_lossless ih _ _)
  | union name explicit tags resolved payloads ih =>
    exact union_lossless (tags_injective resolved) ih

lemma prefixFree {α : Type} (shape : Shape α) : PrefixFree shape.format.Writes := by
  induction shape with
  | bool => exact bool_prefixFree
  | integer width => exact fixed_prefixFree width
  | char => exact char_prefixFree
  | string => exact string_prefixFree
  | option default item ih => exact option_prefixFree default ih
  | box item ih => exact ih
  | tuple items ih => exact fields_prefixFree ih _ _
  | vec size item ih => exact collection_prefixFree ih
  | vecDeque size item ih => exact collection_prefixFree ih
  | linkedList item ih => exact collection_prefixFree ih
  | unitStruct => exact unit_prefixFree
  | transparentStruct => exact fixed_prefixFree 4
  | tupleStruct count_le fields ih | namedStruct count_le orders fields ih =>
    exact object_prefixFree _ (fields_prefixFree ih _ _)
  | union name explicit tags resolved payloads ih =>
    exact union_prefixFree (tags_injective resolved) ih

end Shape

/-- A serialized value of a type without recursion is read back from the front of any string that
begins with its bytes, under limits that admit its demand; and the writings of a type are injective
and prefix free. -/
theorem shape_round_trip {α : Type} (shape : Shape α) :
    (∀ (value : α) (bytes suffix : List UInt8) (limits : MemoryPackDecodeLimits)
        (remaining used : Nat),
      shape.format.serialize value = .ok bytes →
      (shape.format.demand value).Within limits remaining →
      used + (shape.format.demand value).allocation ≤ limits.maxAllocationBytes.toNat →
        shape.format.deserialize limits remaining { rest := bytes ++ suffix, used } =
          .ok (value, { rest := suffix, used := used + (shape.format.demand value).allocation })) ∧
    (∀ (first second : α) (bytes : List UInt8), shape.format.serialize first = .ok bytes →
      shape.format.serialize second = .ok bytes → first = second) ∧
    ∀ (first second : α) (left right : List UInt8), shape.format.serialize first = .ok left →
      shape.format.serialize second = .ok right → left <+: right → left = right := by
  refine ⟨?_, ?_, ?_⟩
  · intro value bytes suffix limits remaining used serialized within allocation
    exact (shape.lossless.reads limits remaining serialized suffix used (by omega)).1
      ⟨within, allocation⟩
  · intro first second bytes first_ok second_ok
    exact shape.prefixFree.injective first_ok second_ok
  · intro first second left right first_ok second_ok begins
    exact (shape.prefixFree.eq_of_prefix first_ok second_ok begins).2

abbrev SampleField (field : Fin 2) : Type := if field = 0 then BitVec 8 else Option Bool

/-- A struct of a byte and an optional flag, written in the opposite order. -/
def sampleStruct : Shape (∀ field, SampleField field) :=
  .namedStruct (by decide) (fun field => if field = 0 then some 1 else some 0) fun
    | 0 => .integer 1
    | 1 => .option false .bool

abbrev SamplePayload (variant : Fin 2) : Type :=
  if variant = 0 then Char else List (∀ field, SampleField field)

/-- A union of a character with the explicit tag seven and of a vector of structs. -/
def sampleUnion : Shape (Sigma SamplePayload) :=
  .union "Sample" (fun variant => if variant = 0 then some 7 else none)
    (fun variant => if variant = 0 then 7 else 1) (by decide) fun
    | 0 => .char
    | 1 => .vec 2 sampleStruct

def sampleValue : Sigma SamplePayload :=
  ⟨1, [fun | 0 => (5 : BitVec 8) | 1 => (none : Option Bool)]⟩

/-- The sample comes back from the front of a longer string. -/
theorem shape_round_trip_union :
    sampleUnion.format.serialize sampleValue = .ok [1, 1, 0, 0, 0, 2, 0, 0, 0, 0, 0, 5] ∧
      sampleUnion.format.deserialize .default 32
          { rest := [1, 1, 0, 0, 0, 2, 0, 0, 0, 0, 0, 5] ++ [9], used := 0 } =
        .ok (sampleValue, { rest := [9], used := 2 }) :=
  ⟨rfl, (shape_round_trip sampleUnion).1 sampleValue _ [9] .default 32 0 rfl
    (by decide) (by decide)⟩

end Catga.Codec
