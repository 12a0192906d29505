import Mathlib.Tactic.ByContra
import Mathlib.Tactic.SplitIfs
import Phrasebook.Dict

namespace Phrasebook.Text

/-- The bytes of the UTF-8 form. -/
def bytes (s : String) : List UInt8 := s.toUTF8.data.toList

theorem bytes_eq_flatMap (s : String) : bytes s = s.toList.flatMap String.utf8EncodeChar := by
  rw [bytes, String.toUTF8, ← s.utf8Encode_toList, List.utf8Encode, List.data_toByteArray]

/-- The smaller of two characters has the smaller bytes, whatever follows them. -/
theorem utf8EncodeChar_lt {c d : Char} (h : c < d) (xs ys : List UInt8) :
    String.utf8EncodeChar c ++ xs < String.utf8EncodeChar d ++ ys := by
  have hlt : c.val.toNat < d.val.toNat := h
  have hbound : d.val.toNat < 0x110000 := by
    obtain hlow | hhigh := d.valid
    · have hlow' : d.val.toNat < 0xD800 := hlow
      omega
    · exact hhigh.2
  simp only [String.utf8EncodeChar]
  generalize c.val.toNat = m at *
  generalize d.val.toNat = n at *
  -- Six bits go into each byte, so the first byte that differs is that of the first such digit.
  have h6 : m / 64 < n / 64 ∨ m / 64 = n / 64 ∧ m % 64 < n % 64 := by omega
  have h12 : m / 4096 < n / 4096 ∨
      m / 4096 = n / 4096 ∧ (m / 64 < n / 64 → m / 64 % 64 < n / 64 % 64) := by omega
  have h18 : m / 262144 < n / 262144 ∨
      m / 262144 = n / 262144 ∧ (m / 4096 < n / 4096 → m / 4096 % 64 < n / 4096 % 64) := by omega
  split_ifs
  all_goals
    simp (disch := omega) only [List.cons_append, List.nil_append, List.cons_lt_cons_iff,
      UInt8.lt_iff_toNat_lt, UInt8.toNat_ofNat', ← UInt8.toNat_inj, Nat.mod_eq_of_lt]
    omega

theorem flatMap_utf8EncodeChar_lt {cs ds : List Char} (h : cs < ds) :
    cs.flatMap String.utf8EncodeChar < ds.flatMap String.utf8EncodeChar := by
  induction cs generalizing ds with
  | nil =>
    cases ds with
    | nil => exact absurd h (List.lt_irrefl _)
    | cons d ds =>
      obtain ⟨b, bs, hbytes⟩ := List.exists_cons_of_ne_nil (String.utf8EncodeChar_ne_nil (c := d))
      rw [List.flatMap_nil, List.flatMap_cons, hbytes]
      exact List.nil_lt_cons _ _
  | cons c cs ih =>
    cases ds with
    | nil => exact absurd h (List.not_lt_nil _)
    | cons d ds =>
      rw [List.flatMap_cons, List.flatMap_cons]
      obtain hc | ⟨rfl, hcs⟩ := List.cons_lt_cons_iff.mp h
      · exact utf8EncodeChar_lt hc _ _
      · exact List.append_left_lt (ih hcs)

theorem bytes_lt_of_lt {s t : String} (h : s < t) : bytes s < bytes t := by
  rw [bytes_eq_flatMap, bytes_eq_flatMap]
  exact flatMap_utf8EncodeChar_lt h

theorem bytes_lt_iff {s t : String} : bytes s < bytes t ↔ s < t := by
  constructor
  · intro h
    by_contra hnot
    by_cases heq : s = t
    · subst heq
      exact List.lt_irrefl _ h
    · have hts := bytes_lt_of_lt (Dict.lt_of_not_lt_of_ne hnot heq)
      exact List.lt_asymm h hts
  · exact bytes_lt_of_lt

end Phrasebook.Text
