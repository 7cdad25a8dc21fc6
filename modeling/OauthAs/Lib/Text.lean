-- SUMMARY: Cutting texts apart: at the first occurrence of a character, and after a stated size.
import Mathlib.Tactic.Common

/-!
# Texts made of parts

A text put together from parts gives the parts back if each of them says where it ends: by a
character it does not contain, or by its size, written in front of it.
-/

namespace OauthAs.Text

/-- A text is cut where a character first occurs. -/
theorem append_cons_inj {α : Type} {a : α} {xs ys rest rest' : List α} (hxs : a ∉ xs)
    (hys : a ∉ ys) (h : xs ++ a :: rest = ys ++ a :: rest') : xs = ys ∧ rest = rest' := by
  rcases List.append_eq_append_iff.mp h with ⟨more, rfl, heq⟩ | ⟨more, rfl, heq⟩
  · cases more with
    | nil => exact ⟨(List.append_nil _).symm, (List.cons.inj heq).2⟩
    | cons b more => exact absurd (by simp [(List.cons.inj heq).1]) hys
  · cases more with
    | nil => exact ⟨List.append_nil _, (List.cons.inj heq).2.symm⟩
    | cons b more => exact absurd (by simp [(List.cons.inj heq).1]) hxs

theorem toDigits_inj {n n' : Nat} (h : Nat.toDigits 10 n = Nat.toDigits 10 n') : n = n' := by
  have hvalue := congrArg (Nat.ofDigitChars 10 · 0) h
  rwa [Nat.ofDigitChars_toDigits (by decide) (by decide),
    Nat.ofDigitChars_toDigits (by decide) (by decide)] at hvalue

theorem eq_nil_of_size {a b : String} {more : List Char} (h : a.toList = b.toList ++ more)
    (hsize : a.utf8ByteSize = b.utf8ByteSize) : more = [] := by
  have ha : a = b ++ String.ofList more := String.toList_injective (by simp [h])
  have hzero : (String.ofList more).utf8ByteSize = 0 := by
    rw [ha, String.utf8ByteSize_append] at hsize
    omega
  simpa using hzero

/-- A text after its size: the size says where the text ends, whatever is in it. -/
def sized (text : String) : List Char :=
  Nat.toDigits 10 text.utf8ByteSize ++ ':' :: text.toList

theorem sized_inj {a b : String} {rest rest' : List Char}
    (h : sized a ++ rest = sized b ++ rest') : a = b ∧ rest = rest' := by
  have hdigits : ∀ n, ':' ∉ Nat.toDigits 10 n := fun n hmem =>
    absurd (Nat.isDigit_of_mem_toDigits (by decide) (by decide) hmem) (by decide)
  simp only [sized, List.append_assoc, List.cons_append] at h
  obtain ⟨hsize, htext⟩ := append_cons_inj (hdigits _) (hdigits _) h
  have hsize := toDigits_inj hsize
  rcases List.append_eq_append_iff.mp htext with ⟨more, hb, hrest⟩ | ⟨more, ha, hrest⟩
  · cases eq_nil_of_size hb hsize.symm
    exact ⟨String.toList_injective (by simp [hb]), hrest⟩
  · cases eq_nil_of_size ha hsize
    exact ⟨String.toList_injective (by simp [ha]), hrest.symm⟩

end OauthAs.Text
