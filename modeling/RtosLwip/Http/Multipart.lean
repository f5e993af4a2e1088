import RtosLwip.Http.Receive

/-!
# Multipart Bodies

A `multipart/form-data` body with one file part, and where the receiver will
find its boundary. The body is the part header, the file, and the delimiter
behind the file with whatever follows it.

The file does not contain the boundary, and the boundary contains neither a
carriage return nor a line feed, so in the content it cannot be found before
the line end of the delimiter. It is found behind the two dashes there, except
when it is made of dashes itself: then the two dashes are taken for its
beginning.

## Main definitions

* `Multipart`: A body with one file part.
* `StoredContent`: The content, cut into blocks and cut off four bytes before
  the boundary of the last one, is the file.

## Theorems

* `memmem_boundary`: Where the boundary is found first.
* `storedContent_iff`: When the content is cut off at the end of the file.
-/

namespace RtosLwip

namespace Http

open Flash

/-- The character "-". -/
def dash : UInt8 := 45

/-- The header of a file part, with the delimiter in front of it and the empty
    line behind it. -/
def partHeader (boundary disposition filename headers : List UInt8) : List UInt8 :=
  [dash, dash] ++ boundary ++ crlf ++ disposition ++ uploadFormFilename ++ [61, quote] ++
    filename ++ [quote] ++ headers ++ crlf ++ crlf

/-- A `multipart/form-data` body with one file part: what stands before and
    behind the file name in the part header, the file, and what follows the
    closing delimiter. The part header ends with its first empty line, and the
    file does not contain the boundary. -/
structure Multipart where
  boundary : List UInt8
  disposition : List UInt8
  filename : List UInt8
  headers : List UInt8
  file : List UInt8
  epilogue : List UInt8
  boundary_ne : boundary ≠ []
  boundary_length : boundary.length ≤ 70
  boundary_text : ∀ b ∈ boundary, b ≠ 0 ∧ b ≠ 13 ∧ b ≠ 10
  filename_ne : filename ≠ []
  filename_text : quote ∉ filename
  header_text : 0 ∉ partHeader boundary disposition filename headers
  header_end : memmem (crlf ++ crlf) (partHeader boundary disposition filename headers)
    = some ((partHeader boundary disposition filename headers).length - 4)
  file_clean : ¬ boundary <:+: file

namespace Multipart

variable (m : Multipart)

/-- The part header. -/
def header : List UInt8 := partHeader m.boundary m.disposition m.filename m.headers

/-- The delimiter behind the file, and what follows it. -/
def tail : List UInt8 := crlf ++ ([dash, dash] ++ (m.boundary ++ ([dash, dash] ++ m.epilogue)))

/-- The file and the delimiter behind it. -/
def content : List UInt8 := m.file ++ m.tail

/-- The body. -/
def body : List UInt8 := m.header ++ m.content

theorem memmem_header_end : memmem (crlf ++ crlf) m.header = some (m.header.length - 4) :=
  m.header_end

theorem boundary_length_pos : 0 < m.boundary.length := List.length_pos_iff.mpr m.boundary_ne

theorem length_tail : m.tail.length = m.boundary.length + m.epilogue.length + 6 := by
  simp only [tail, crlf, List.length_append, List.length_cons, List.length_nil]
  omega

theorem length_content : m.content.length = m.file.length + m.tail.length := List.length_append

end Multipart

/-! ### Where the boundary is -/

/-- A list that begins with a dash and then with itself is made of dashes. -/
theorem forall_dash_of_begins {d : UInt8} {b r : List UInt8} (h : b <+: d :: (b ++ r)) :
    ∀ c ∈ b, c = d := by
  induction b with
  | nil => exact fun c hc => absurd hc List.not_mem_nil
  | cons a b ih =>
      rw [List.cons_prefix_cons] at h
      rcases h with ⟨rfl, h⟩
      intro c hc
      rcases List.mem_cons.mp hc with rfl | hc
      · rfl
      · exact ih h c hc

/-- The same behind two dashes. -/
theorem forall_dash_of_begins_two {d : UInt8} {b r : List UInt8}
    (h : b <+: d :: d :: (b ++ r)) : ∀ c ∈ b, c = d := by
  induction b with
  | nil => exact fun c hc => absurd hc List.not_mem_nil
  | cons a b ih =>
      rw [List.cons_prefix_cons] at h
      rcases h with ⟨rfl, h⟩
      intro c hc
      rcases List.mem_cons.mp hc with rfl | hc
      · rfl
      · exact ih h c hc

/-- Dashes alone are found among more dashes. -/
theorem prefix_of_forall_dash {d : UInt8} {b r : List UInt8} (h : ∀ c ∈ b, c = d) :
    b <+: d :: d :: (b ++ r) := by
  have hb : b = List.replicate b.length d := List.eq_replicate_of_mem h
  have hsplit : d :: d :: (b ++ r) = b ++ (d :: d :: r) := by
    rw [hb]
    generalize b.length = n
    induction n with
    | zero => rfl
    | succ n ih =>
        rw [List.replicate_succ, List.cons_append, List.cons_append, ← ih]
  rw [hsplit]
  exact List.prefix_append b _

/-- An occurrence that covers a position has the character that stands there. -/
theorem mem_of_prefix_drop {b l : List UInt8} {q i : Nat} {c : UInt8} (h : b <+: l.drop q)
    (hq : q ≤ i) (hi : i < q + b.length) (hc : l[i]? = some c) : c ∈ b := by
  have hlt : i - q < b.length := by omega
  have hget := List.prefix_iff_getElem?.mp h (i - q) hlt
  rw [List.getElem?_drop, Nat.add_sub_cancel' hq, hc, Option.some.injEq] at hget
  rw [hget]
  exact List.getElem_mem hlt

variable {m : Multipart}

/-- Behind any rest of the file, the boundary is found first behind the line end
    and the two dashes, unless it is made of dashes. -/
theorem memmem_boundary {rest : List UInt8} (hrest : ¬ m.boundary <:+: rest)
    (hdash : ∃ c ∈ m.boundary, c ≠ dash) :
    memmem m.boundary (rest ++ m.tail) = some (rest.length + 4) := by
  refine (memmem_eq_some_iff _ _ _).mpr ⟨⟨?_, ?_⟩, fun q hq hpre => ?_⟩
  · rw [List.length_append, m.length_tail]
    omega
  · rw [List.drop_length_add_append]
    exact List.prefix_append _ _
  · have hpos := m.boundary_length_pos
    by_cases hin : q + m.boundary.length ≤ rest.length
    · -- an occurrence within the file
      rw [List.drop_append_of_le_length (by omega)] at hpre
      have hpre' : m.boundary <+: rest.drop q :=
        List.prefix_of_prefix_length_le hpre (List.prefix_append _ _)
          (by rw [List.length_drop]; omega)
      exact hrest (hpre'.isInfix.trans (List.drop_suffix q rest).isInfix)
    · by_cases hcr : q ≤ rest.length
      · -- it would cover the carriage return
        have hget : (rest ++ m.tail)[rest.length]? = some 13 := by
          rw [List.getElem?_append_right (Nat.le_refl _), Nat.sub_self]
          rfl
        exact (m.boundary_text 13 (mem_of_prefix_drop hpre hcr (by omega) hget)).2.1 rfl
      · by_cases hlf : q ≤ rest.length + 1
        · have hget : (rest ++ m.tail)[rest.length + 1]? = some 10 := by
            rw [List.getElem?_append_right (by omega), Nat.add_sub_cancel_left]
            rfl
          exact (m.boundary_text 10 (mem_of_prefix_drop hpre hlf (by omega) hget)).2.2 rfl
        · -- only the two dashes are left to begin at
          rcases hdash with ⟨c, hc, hne⟩
          have hcases : q = rest.length + 2 ∨ q = rest.length + 3 := by omega
          rcases hcases with rfl | rfl
          · rw [List.drop_length_add_append] at hpre
            exact hne (forall_dash_of_begins_two (r := [dash, dash] ++ m.epilogue) hpre c hc)
          · rw [List.drop_length_add_append] at hpre
            exact hne (forall_dash_of_begins (r := [dash, dash] ++ m.epilogue) hpre c hc)

/-- A boundary made of dashes is found two characters too early. -/
theorem prefix_drop_of_dashes (rest : List UInt8) (hdash : ∀ c ∈ m.boundary, c = dash) :
    m.boundary <+: (rest ++ m.tail).drop (rest.length + 2) := by
  rw [List.drop_length_add_append]
  exact prefix_of_forall_dash (r := [dash, dash] ++ m.epilogue) hdash

/-- The blocks of the content without their boundary make up the file, and the
    last, partial one ends four bytes before it. -/
def StoredContent (m : Multipart) : Prop :=
  ¬ Marked m.boundary (blocks maxReqLength m.content) ∧
    ∃ p, memmem m.boundary (leftover maxReqLength m.content) = some p ∧ 4 ≤ p ∧
      (blocks maxReqLength m.content).flatten
        ++ (leftover maxReqLength m.content).take (p - 4) = m.file

/-- The blocks hold no boundary and the cut is made at the end of the file
    exactly when the delimiter lies in the last, partial block and the boundary
    is not made of dashes. -/
theorem storedContent_iff (m : Multipart) :
    StoredContent m ↔ m.tail.length ≤ m.content.length % maxReqLength ∧
      ∃ c ∈ m.boundary, c ≠ dash := by
  have hlen := m.length_content
  have htail := m.length_tail
  have hdiv := Nat.div_add_mod m.content.length maxReqLength
  have hflat := flatten_blocks_eq_take maxReqLength_pos m.content
  unfold StoredContent leftover
  rw [hflat]
  generalize hK : maxReqLength * (m.content.length / maxReqLength) = K at *
  -- as soon as the full blocks end within the file, the rest of it stands before the delimiter
  have hdrop : K ≤ m.file.length → m.content.drop K = m.file.drop K ++ m.tail :=
    fun h => List.drop_append_of_le_length h
  constructor
  · rintro ⟨-, p, hp, hfour, hfile⟩
    rw [← List.take_add] at hfile
    have hcut : K + (p - 4) = m.file.length := by
      have hl := congrArg List.length hfile
      rw [List.length_take] at hl
      omega
    refine ⟨by omega, ?_⟩
    by_contra hall
    have hdash : ∀ c ∈ m.boundary, c = dash := fun c hc => by
      by_contra hne
      exact hall ⟨c, hc, hne⟩
    have hearly := prefix_drop_of_dashes (m.file.drop K) hdash
    rw [← hdrop (by omega), List.length_drop] at hearly
    exact ((memmem_eq_some_iff _ _ p).mp hp).2 _ (by omega) hearly
  · rintro ⟨hfits, hdash⟩
    have hle : K ≤ m.file.length := by omega
    have hclean : ¬ m.boundary <:+: m.file.drop K := fun h =>
      m.file_clean (h.trans (List.drop_suffix K m.file).isInfix)
    refine ⟨?_, (m.file.drop K).length + 4, ?_, by omega, ?_⟩
    · rintro ⟨b, hb, hin⟩
      have hpart : b <:+: m.content.take K := by
        rw [← hflat]
        exact List.infix_of_mem_flatten hb
      rw [Multipart.content, List.take_append_of_le_length hle] at hpart
      exact m.file_clean (hin.trans (hpart.trans (List.take_prefix K m.file).isInfix))
    · rw [hdrop hle]
      exact memmem_boundary hclean hdash
    · rw [← List.take_add, Nat.add_sub_cancel, List.length_drop, Nat.add_sub_cancel' hle,
        Multipart.content, List.take_left]

end Http

end RtosLwip
