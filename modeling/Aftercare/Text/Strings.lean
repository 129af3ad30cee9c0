import Mathlib.Data.List.Forall2
import Mathlib.Data.Nat.Digits.Defs

/-!
# Text of numbers, white space, and joined names

Hexadecimal numbers as they are read and written, the white space that `strip` takes off, and what texts that
are joined by colons have in common. A reader
is given by the value of a digit, so that one that takes upper-case digits only (`upperHexDigit`) and one
that takes both (`anyHexDigit`) are the same function.
-/

namespace Aftercare.Text

/-- White space, as `str.strip` and `str.isspace` mean it. -/
def isSpace (c : Char) : Bool :=
  let n := c.toNat
  (9 ≤ n && n ≤ 13) || (28 ≤ n && n ≤ 32) || n == 0x85 || n == 0xA0 || n == 0x1680 ||
    (0x2000 ≤ n && n ≤ 0x200A) || n == 0x2028 || n == 0x2029 || n == 0x202F || n == 0x205F ||
    n == 0x3000

/-- `str.strip()`, as characters. -/
def strip (s : String) : List Char :=
  ((s.toList.dropWhile isSpace).reverse.dropWhile isSpace).reverse

/-! ## Hexadecimal numbers -/

/-- The value of a digit of `[0-9A-F]`. -/
def upperHexDigit (c : Char) : Option ℕ :=
  if '0' ≤ c ∧ c ≤ '9' then some (c.toNat - 48)
  else if 'A' ≤ c ∧ c ≤ 'F' then some (c.toNat - 55)
  else none

/-- The value of a digit of `[0-9A-Fa-f]`. -/
def anyHexDigit (c : Char) : Option ℕ :=
  if 'a' ≤ c ∧ c ≤ 'f' then some (c.toNat - 87) else upperHexDigit c

/-- `int(text, 16)` of digits, the highest first. -/
def hexNumber (digit : Char → Option ℕ) (text : List Char) : Option ℕ :=
  (text.mapM digit).map fun digits => Nat.ofDigits 16 digits.reverse

/-- At least eight digits: `f"{n:08X}"`. -/
def hex8 (n : ℕ) : String :=
  String.ofList (((Nat.toDigits 16 n).map Char.toUpper).leftpad 8 '0')

example : hex8 0x1F4 = "000001F4" := by decide

theorem upperHexDigit_spec {c : Char} {d : ℕ} (h : upperHexDigit c = some d) :
    d < 16 ∧ c.toNat = if d < 10 then 48 + d else 55 + d := by
  unfold upperHexDigit at h
  have hval : ∀ a b : Char, a ≤ b ↔ a.toNat ≤ b.toNat := fun a b => Iff.rfl
  simp only [hval] at h
  split_ifs at h with h1 h2
  · cases h
    obtain ⟨hlo, hhi⟩ := h1
    change 48 ≤ c.toNat at hlo
    change c.toNat ≤ 57 at hhi
    rw [if_pos (by omega)]
    omega
  · cases h
    obtain ⟨hlo, hhi⟩ := h2
    change 65 ≤ c.toNat at hlo
    change c.toNat ≤ 70 at hhi
    rw [if_neg (by omega)]
    omega

theorem upperHexDigit_inj {c c' : Char} {d : ℕ} (h : upperHexDigit c = some d)
    (h' : upperHexDigit c' = some d) : c = c' :=
  Char.toNat_inj.mp ((upperHexDigit_spec h).2.trans (upperHexDigit_spec h').2.symm)

theorem mapM_eq_some_iff {α β : Type} {f : α → Option β} {l : List α} {r : List β} :
    l.mapM f = some r ↔ List.Forall₂ (fun a b => f a = some b) l r := by
  induction l generalizing r with
  | nil => simp [eq_comm]
  | cons a l ih =>
    rw [List.mapM_cons, List.forall₂_cons_left_iff]
    simp only [Option.bind_eq_bind, Option.bind_eq_some_iff, Option.pure_def, Option.some.injEq, ih]
    constructor
    · rintro ⟨b, hb, bs, hbs, rfl⟩
      exact ⟨b, bs, hb, hbs, rfl⟩
    · rintro ⟨b, bs, hb, hbs, rfl⟩
      exact ⟨b, hb, bs, hbs, rfl⟩

theorem hexNumber_inj {s s' : List Char} {n : ℕ} (hlen : s.length = s'.length)
    (h : hexNumber upperHexDigit s = some n) (h' : hexNumber upperHexDigit s' = some n) : s = s' := by
  unfold hexNumber at h h'
  rw [Option.map_eq_some_iff] at h h'
  obtain ⟨ds, hds, hn⟩ := h
  obtain ⟨ds', hds', hn'⟩ := h'
  rw [mapM_eq_some_iff] at hds hds'
  have hlt : ∀ {s : List Char} {ds : List ℕ},
      List.Forall₂ (fun a b => upperHexDigit a = some b) s ds → ∀ d ∈ ds.reverse, d < 16 := by
    intro s ds hds
    induction hds with
    | nil => simp
    | cons hc _ ih =>
      rw [List.reverse_cons, List.forall_mem_append, List.forall_mem_singleton]
      exact ⟨ih, (upperHexDigit_spec hc).1⟩
  have hrev : ds.reverse = ds'.reverse := by
    refine Nat.ofDigits_inj_of_len_eq (by decide) ?_ (hlt hds) (hlt hds') (hn.trans hn'.symm)
    rw [List.length_reverse, List.length_reverse, ← hds.length_eq, ← hds'.length_eq, hlen]
  rw [← List.reverse_inj.mp hrev] at hds'
  have hunique : Relator.LeftUnique fun c d => upperHexDigit c = some d := fun _ _ _ hc hc' => upperHexDigit_inj hc hc'
  exact List.left_unique_forall₂' hunique hds hds'

/-! ## Names joined by colons -/

/-- One text for both pairs; the first is joined at an earlier colon. -/
def Shifted (p q : String × String) : Prop :=
  ∃ s : String, q.1 = p.1 ++ ":" ++ s ∧ p.2 = s ++ ":" ++ q.2

theorem toList_joined (a b : String) : (a ++ ":" ++ b).toList = a.toList ++ ':' :: b.toList := by
  rw [String.toList_append, String.toList_append, List.append_assoc]
  rfl

/-- **Pairs with one joined text** are the same, or one is shifted. -/
theorem joined_eq_iff {p q : String × String} :
    p.1 ++ ":" ++ p.2 = q.1 ++ ":" ++ q.2 ↔ p = q ∨ Shifted p q ∨ Shifted q p := by
  constructor
  · intro h
    rw [← String.toList_inj, toList_joined, toList_joined, List.append_eq_append_iff] at h
    have hshift : ∀ {p q : String × String}, (∃ m, q.1.toList = p.1.toList ++ m ∧
        ':' :: p.2.toList = m ++ ':' :: q.2.toList) → p = q ∨ Shifted p q := by
      rintro p q ⟨m, hm, htail⟩
      cases m with
      | nil =>
        rw [List.append_nil, String.toList_inj] at hm
        rw [List.nil_append, List.cons.injEq, String.toList_inj] at htail
        exact .inl (Prod.ext hm.symm htail.2)
      | cons c s =>
        rw [List.cons_append, List.cons.injEq] at htail
        obtain ⟨rfl, htail⟩ := htail
        refine .inr ⟨String.ofList s, ?_, ?_⟩
        · rw [← String.toList_inj, toList_joined, String.toList_ofList, hm]
        · rw [← String.toList_inj, toList_joined, String.toList_ofList, htail]
    rcases h with h | h
    · exact (hshift h).imp_right .inl
    · exact (hshift h).imp Eq.symm .inr
  · have hjoined : ∀ {p q : String × String}, Shifted p q → p.1 ++ ":" ++ p.2 = q.1 ++ ":" ++ q.2 := by
      rintro p q ⟨s, hfirst, hsecond⟩
      rw [hfirst, hsecond]
      simp only [String.append_assoc]
    rintro (rfl | h | h)
    · rfl
    · exact hjoined h
    · exact (hjoined h).symm

def pieces (text : String) : List (List Char) :=
  text.toList.splitOn ':'

theorem pieces_joined (a b : String) : pieces (a ++ ":" ++ b) = pieces a ++ pieces b := by
  rw [pieces, toList_joined]
  exact List.splitOnP_append_cons _ _ (beq_self_eq_true ':')

theorem pieces_inj {a b : String} : pieces a = pieces b ↔ a = b := by
  refine ⟨fun h => ?_, congrArg pieces⟩
  have hjoin := congrArg (List.intercalate [':']) h
  rwa [pieces, pieces, List.intercalate_splitOn, List.intercalate_splitOn, String.toList_inj] at hjoin

/-! ## Lines of bytes -/

theorem append_cons_inj {α : Type} {a : α} {l l' r r' : List α} (hl : a ∉ l) (hl' : a ∉ l')
    (h : l ++ a :: r = l' ++ a :: r') : l = l' ∧ r = r' := by
  induction l generalizing l' with
  | nil =>
    cases l' with
    | nil => exact ⟨rfl, (List.cons.inj h).2⟩
    | cons b l' => exact absurd ((List.cons.inj h).1 ▸ List.mem_cons_self) hl'
  | cons b l ih =>
    cases l' with
    | nil => exact absurd ((List.cons.inj h).1 ▸ List.mem_cons_self) hl
    | cons b' l' =>
      rw [List.cons_append, List.cons_append, List.cons.injEq] at h
      obtain ⟨rfl, h⟩ := h
      obtain ⟨rfl, hr⟩ := ih (fun hmem => hl (.tail _ hmem)) (fun hmem => hl' (.tail _ hmem)) h
      exact ⟨rfl, hr⟩

def utf8 (s : String) : List UInt8 := s.toList.flatMap String.utf8EncodeChar

theorem utf8_inj {s t : String} (h : utf8 s = utf8 t) : s = t := by
  rw [← String.toByteArray_inj, ← String.ofList_toList (s := s), ← String.ofList_toList (s := t),
    String.toByteArray_ofList, String.toByteArray_ofList]
  exact congrArg List.toByteArray h

theorem utf8_append (s t : String) : utf8 (s ++ t) = utf8 s ++ utf8 t := by
  rw [utf8, String.toList_append, List.flatMap_append, utf8, utf8]

/-- The bytes of a character outside of ASCII are larger than a newline. -/
theorem newline_notMem_utf8 {s : String} (h : '\n' ∉ s.toList) : 10 ∉ utf8 s := by
  rw [utf8, List.mem_flatMap]
  rintro ⟨c, hc, hbyte⟩
  have hbyte_eq : ∀ n < 256, 10 = UInt8.ofNat n → n = 10 := by
    intro n hn h
    have hval := congrArg UInt8.toNat h
    rw [UInt8.toNat_ofNat_of_lt' hn] at hval
    exact hval.symm
  have hcode : c.val.toNat = 10 := by
    simp only [String.utf8EncodeChar] at hbyte
    split_ifs at hbyte
    all_goals
      simp only [List.mem_cons, List.not_mem_nil, or_false] at hbyte
      grind
  exact h ((Char.ext (UInt32.toNat_inj.mp hcode) : c = '\n') ▸ hc)

end Aftercare.Text
