import Mathlib.Data.List.Basic

/-!
# Prefix-free encodings

An encoding relates values to the strings they are written as.  It is prefix free if what was
written tells where it ends: two strings that agree once something follows each of them were written
for one value.  Encodings that put a key first and then what the key announces keep the property.
-/

variable {α β κ : Type}

/-- Whatever follows, a written string determines its value and where it ends. -/
def PrefixFree (Writes : α → List β → Prop) : Prop :=
  ∀ ⦃first second : α⦄ ⦃left right tail rest : List β⦄, Writes first left → Writes second right →
    left ++ tail = right ++ rest → first = second ∧ tail = rest

namespace PrefixFree

variable {Writes : α → List β → Prop} {first second : α}

/-- An encoding that some function reads back from the front of any string is prefix free. -/
lemma of_reader (read : List β → Option (α × List β))
    (reads : ∀ value written rest, Writes value written →
      read (written ++ rest) = some (value, rest)) : PrefixFree Writes := by
  intro first second left right tail rest writes_first writes_second same
  have read_first := reads first left tail writes_first
  have read_second := reads second right rest writes_second
  rw [same, read_second] at read_first
  have pair_eq : (second, rest) = (first, tail) := Option.some.inj read_first
  exact ⟨(congrArg Prod.fst pair_eq).symm, (congrArg Prod.snd pair_eq).symm⟩

lemma mono {Fewer} (free : PrefixFree Writes)
    (fewer : ∀ value written, Fewer value written → Writes value written) : PrefixFree Fewer :=
  fun _ _ _ _ _ _ writes_first writes_second same =>
    free (fewer _ _ writes_first) (fewer _ _ writes_second) same

lemma keyed {Key} {key : α → κ} {Body : α → List β → Prop}
    (keys : PrefixFree Key)
    (bodies : ∀ k, PrefixFree fun value written => key value = k ∧ Body value written) :
    PrefixFree fun value written =>
      ∃ header body, Key (key value) header ∧ Body value body ∧ written = header ++ body := by
  rintro first second left right tail rest ⟨header, body, key_first, body_first, rfl⟩
    ⟨otherHeader, otherBody, key_second, body_second, rfl⟩ same
  rw [List.append_assoc, List.append_assoc] at same
  obtain ⟨key_eq, bodies_eq⟩ := keys key_first key_second same
  exact bodies (key second) ⟨key_eq, body_first⟩ ⟨rfl, body_second⟩ bodies_eq

lemma injective (free : PrefixFree Writes) {written}
    (writes_first : Writes first written) (writes_second : Writes second written) :
    first = second := (free writes_first writes_second (rfl : written ++ [] = written ++ [])).1

lemma eq_of_prefix (free : PrefixFree Writes) {left right}
    (writes_first : Writes first left) (writes_second : Writes second right)
    (begins : left <+: right) : first = second ∧ left = right := by
  obtain ⟨tail, rfl⟩ := begins
  have same : left ++ tail = left ++ tail ++ [] := (List.append_nil _).symm
  obtain ⟨value_eq, tail_eq⟩ := free writes_first writes_second same
  exact ⟨value_eq, by rw [tail_eq, List.append_nil]⟩

end PrefixFree
