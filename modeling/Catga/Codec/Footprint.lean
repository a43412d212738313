import Catga.Codec.Format

/-!
# The footprint of a value

How many bytes a value takes and what it asks of the reader follows from its strings and byte
vectors, the lengths of its other collections with the memory reserved for their entries, and a
number of bytes that depends on neither.  The rules below give the footprint of every wire form from
those of its parts.
-/

namespace Catga.Codec

variable {α β : Type}

/-- What size and demand of a value are computed from. -/
structure Footprint where
  /-- Bytes on the wire beside those of strings and byte vectors. -/
  fixed : Nat := 0
  texts : List String := []
  blobs : List (List UInt8) := []
  /-- Memory reserved for the entries of other collections. -/
  reserved : Nat := 0
  counts : List Nat := []

variable {footprint : α → Footprint} {item : Format α} {depth : Nat}

def textBytes (text : String) : Nat :=
  if utf8Bytes text = [] then 4 else 8 + (utf8Bytes text).length

namespace Footprint

variable (footprint : Footprint)

@[simp] def wireBytes : Nat :=
  footprint.fixed + (footprint.texts.map textBytes).sum +
    (footprint.blobs.map fun blob => 4 + blob.length).sum

@[simp] def allocation : Nat :=
  footprint.reserved + (footprint.texts.map fun text => (utf8Bytes text).length).sum +
    (footprint.blobs.map List.length).sum

variable (first second : Footprint)

@[simp] def both : Footprint where
  fixed := first.fixed + second.fixed
  texts := first.texts ++ second.texts
  blobs := first.blobs ++ second.blobs
  reserved := first.reserved + second.reserved
  counts := first.counts ++ second.counts

def all : List Footprint → Footprint
  | [] => {}
  | first :: rest => first.both (all rest)

lemma all_blobs (extra : α → Nat) (blob : α → List UInt8) (values : List α) :
    all (values.map fun value => { fixed := extra value, blobs := [blob value] }) =
      { fixed := (values.map extra).sum, blobs := values.map blob } := by
  induction values with
  | nil => rfl
  | cons value values ih =>
    rw [List.map_cons, all, ih]
    simp [both]

lemma wireBytes_both : (first.both second).wireBytes = first.wireBytes + second.wireBytes := by
  simp only [wireBytes, both, List.map_append, List.sum_append]
  omega

lemma allocation_both :
    (first.both second).allocation = first.allocation + second.allocation := by
  simp only [allocation, both, List.map_append, List.sum_append]
  omega

@[simp] def Texts (limit : Nat) : Prop := ∀ text ∈ footprint.texts, (utf8Bytes text).length ≤ limit
deriving Decidable

@[simp] def Lengths (limit : Nat) : Prop :=
  (∀ blob ∈ footprint.blobs, blob.length ≤ limit) ∧ ∀ count ∈ footprint.counts, count ≤ limit
deriving Decidable

variable {first second : Footprint}

lemma texts_both {limit} :
    (first.both second).Texts limit ↔ first.Texts limit ∧ second.Texts limit :=
  List.forall_mem_append

lemma lengths_both {limit} :
    (first.both second).Lengths limit ↔ first.Lengths limit ∧ second.Lengths limit := by
  simp only [Lengths, both, List.forall_mem_append]
  tauto

/-- The footprint gives a size and a demand, up to a bound of the nesting. -/
structure Measures (size : Nat) (demand : Demand) (depth : Nat) : Prop where
  size : size = footprint.wireBytes
  allocation : demand.allocation = footprint.allocation
  texts : ∀ limit, demand.longestString ≤ limit ↔ footprint.Texts limit
  lengths : ∀ limit, demand.longestVec ≤ limit ↔ footprint.Lengths limit
  depth : demand.depth ≤ depth

namespace Measures

variable {footprint other : Footprint} {size rest depth inner : Nat} {demand next : Demand}

lemma nothing : Measures {} 0 .none 0 where
  size := rfl
  allocation := rfl
  texts limit := by simp [Texts]
  lengths limit := by simp [Lengths]
  depth := Nat.le_refl 0

lemma both (first : Measures footprint size demand depth)
    (second : Measures other rest next inner) :
    Measures (footprint.both other) (size + rest) (demand.both next) (max depth inner) where
  size := by rw [wireBytes_both, ← first.size, ← second.size]
  allocation := by
    rw [allocation_both, ← first.allocation, ← second.allocation]
    rfl
  texts limit := by
    rw [texts_both, ← first.texts, ← second.texts]
    exact Nat.max_le
  lengths limit := by
    rw [lengths_both, ← first.lengths, ← second.lengths]
    exact Nat.max_le
  depth := by
    have first_depth := first.depth
    have second_depth := second.depth
    simp only [Demand.both]
    omega

lemma behind (bytes : Nat) (value : Measures footprint size demand depth) :
    Measures (Footprint.both { fixed := bytes } footprint) (bytes + size) demand depth where
  size := by
    rw [wireBytes_both, ← value.size]
    rfl
  allocation := by
    rw [allocation_both, ← value.allocation]
    exact (Nat.zero_add _).symm
  texts limit := by
    rw [texts_both, ← value.texts]
    simp [Texts]
  lengths limit := by
    rw [lengths_both, ← value.lengths]
    simp [Lengths]
  depth := value.depth

lemma deeper (value : Measures footprint size demand depth) :
    Measures footprint size { demand with depth := demand.depth + 1 } (depth + 1) where
  __ := value
  depth := Nat.succ_le_succ value.depth

lemma mono (value : Measures footprint size demand depth) (le : depth ≤ inner) :
    Measures footprint size demand inner := { value with depth := le_trans value.depth le }

end Measures

end Footprint

namespace Format

def Occupies (format : Format α) (footprint : α → Footprint) (depth : Nat) : Prop :=
  ∀ value, (footprint value).Measures (format.size value) (format.demand value) depth

lemma Occupies.fits_iff {format : Format α} (occupies : format.Occupies footprint depth)
    {limits} (shallow : depth ≤ limits.maxNestingDepth.toNat) (value : α) :
    format.Fits limits value ↔
      (footprint value).wireBytes ≤ limits.maxFrameBytes.toNat ∧
      (footprint value).Texts limits.maxStringBytes.toNat ∧
      (footprint value).Lengths limits.maxCollectionItems.toNat ∧
      (footprint value).allocation ≤ limits.maxAllocationBytes.toNat := by
  have measured := occupies value
  have nested := le_trans measured.depth shallow
  rw [Fits, Demand.Fits, Demand.Within, measured.size, measured.allocation, measured.texts,
    measured.lengths]
  tauto

lemma occupies_plain {format : Format α} {bytes} (size : ∀ value, format.size value = bytes)
    (demand : ∀ value, format.demand value = { Demand.none with depth }) :
    format.Occupies (fun _ => { fixed := bytes }) depth := by
  intro value
  rw [size, demand]
  refine (Footprint.Measures.nothing.behind bytes).mono (Nat.zero_le depth) |> fun plain => ?_
  exact { plain with depth := le_rfl }

lemma bool_occupies : bool.Occupies (fun _ => { fixed := 1 }) 0 :=
  occupies_plain (fun _ => rfl) fun _ => rfl

lemma u8_occupies : u8.Occupies (fun _ => { fixed := 1 }) 0 :=
  occupies_plain (fun _ => rfl) fun _ => rfl

lemma u32_occupies : u32.Occupies (fun _ => { fixed := 4 }) 0 :=
  occupies_plain (fun _ => rfl) fun _ => rfl

lemma i64_occupies : i64.Occupies (fun _ => { fixed := 8 }) 0 :=
  occupies_plain (fun _ => rfl) fun _ => rfl

lemma string_occupies : string.Occupies (fun text => { texts := [text] }) 0 := fun text =>
  { size := by simp [string, textBytes]
    allocation := by simp [string]
    texts := by simp [string]
    lengths := by simp [string]
    depth := by simp [string] }

lemma bytes_occupies : bytes.Occupies (fun data => { blobs := [data] }) 0 := fun data =>
  { size := by simp
    allocation := by simp
    texts := by simp
    lengths := by simp
    depth := by simp }

lemma convert_occupies {format : Format β} {footprint}
    (occupies : format.Occupies footprint depth) (wire : α → β)
    (tryFrom : β → Except MemoryPackError α) :
    (format.convert wire tryFrom).Occupies (fun value => footprint (wire value)) depth :=
  fun value => occupies (wire value)

lemma pair_occupies {first : Format α} {second left}
    {right : β → Footprint} {outer inner} (first_occupies : first.Occupies left outer)
    (second_occupies : second.Occupies right inner) :
    (first.pair second).Occupies (fun value => (left value.1).both (right value.2))
      (max outer inner) :=
  fun value => (first_occupies value.1).both (second_occupies value.2)

lemma option_occupies (occupies : item.Occupies footprint depth) (default : α) :
    (option default item).Occupies
      (fun value => Footprint.both { fixed := 4 } (footprint (value.getD default))) depth :=
  fun value => (occupies (value.getD default)).behind 4

lemma object_occupies {fields} (occupies : fields.Occupies footprint depth)
    (count : Nat) :
    (object count fields).Occupies (fun value => Footprint.both { fixed := 1 } (footprint value))
      (depth + 1) :=
  fun value => ((occupies value).behind 1).deeper

lemma items_measures (occupies : item.Occupies footprint depth) (values : List α) :
    (Footprint.all (values.map footprint)).Measures (item.sizeItems values)
      (item.demandItems values) depth := by
  induction values with
  | nil => exact Footprint.Measures.nothing.mono (Nat.zero_le depth)
  | cons value values ih => exact ((occupies value).both ih).mono (le_of_eq (Nat.max_self depth))

/-- The footprint of a vector: its length, the memory of its entries, and the entries. -/
def vecFootprint (size : Nat) (footprint : α → Footprint) (values : List α) : Footprint :=
  Footprint.both { fixed := 4, reserved := values.length * size, counts := [values.length] }
    (.all (values.map footprint))

lemma vec_occupies (occupies : item.Occupies footprint depth) (size : Nat) :
    (vec size item).Occupies (vecFootprint size footprint) depth := by
  intro values
  have header : Footprint.Measures
      { fixed := 4, reserved := values.length * size, counts := [values.length] } 4
      { Demand.none with allocation := values.length * size, longestVec := values.length } 0 :=
    { size := rfl
      allocation := rfl
      texts := by simp
      lengths := by simp
      depth := Nat.le_refl 0 }
  exact (header.both (items_measures occupies values)).mono (le_of_eq (Nat.zero_max depth))

lemma vec_blobs_occupies (extra : α → Nat) (blob : α → List UInt8)
    (occupies : item.Occupies (fun value => { fixed := extra value, blobs := [blob value] }) depth)
    (size : Nat) :
    (vec size item).Occupies (fun values =>
      { fixed := 4 + (values.map extra).sum
        blobs := values.map blob
        reserved := values.length * size
        counts := [values.length] }) depth := by
  intro values
  have measured := vec_occupies occupies size values
  rwa [vecFootprint, Footprint.all_blobs] at measured

end Format

end Catga.Codec
