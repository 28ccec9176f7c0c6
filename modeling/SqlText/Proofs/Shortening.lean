import SqlText.Log

/-!
# Shortened statements

A statement that is too long for a log loses its end. What is left are whole characters, as
many as the limit of bytes allows: the search for the place of the cut goes back byte by
byte, so it passes no boundary between characters, and it goes back three bytes at most,
because no character has more than four.
-/

namespace SqlText.Log

variable {sql : String} {bytes offset : Nat}

/-- The longest beginning of a text that has at most so many bytes, in whole characters. -/
structure IsLongestFit (bytes : Nat) (sql front : String) : Prop where
  /-- It is a beginning of the text. -/
  begins : ∃ back, sql = front ++ back
  /-- It has at most so many bytes. -/
  fits : front.utf8ByteSize ≤ bytes
  /-- It goes on from every other beginning that has at most so many. -/
  longest : ∀ other back, sql = other ++ back → other.utf8ByteSize ≤ bytes →
    ∃ more, front = other ++ more

/-- Where two texts meet is a boundary. -/
theorem isValid_append (front back : String) :
    String.Pos.Raw.IsValid (front ++ back) ⟨front.utf8ByteSize⟩ :=
  String.Pos.Raw.isValid_iff_exists_append.mpr ⟨front, back, rfl, rfl⟩

/-- The search goes back only. -/
theorem boundaryWithin_le (sql : String) (bytes : Nat) : boundaryWithin sql bytes ≤ bytes := by
  induction bytes with
  | zero => exact Nat.le_refl 0
  | succ bytes ih =>
    rw [boundaryWithin]
    split
    · exact Nat.le_refl _
    · exact Nat.le_succ_of_le ih

/-- The search passes no boundary. -/
theorem le_boundaryWithin (hvalid : String.Pos.Raw.IsValid sql ⟨offset⟩)
    (hle : offset ≤ bytes) : offset ≤ boundaryWithin sql bytes := by
  induction bytes with
  | zero => exact hle
  | succ bytes ih =>
    rw [boundaryWithin]
    split
    · exact hle
    · rename_i hinner
      have hne : offset ≠ bytes + 1 := fun h => hinner (h ▸ hvalid)
      exact ih (by omega)

/-- Every byte of a text belongs to a character. -/
theorem exists_char_at (h : offset < sql.utf8ByteSize) :
    ∃ front back c, sql = front ++ (String.singleton c ++ back) ∧
      front.utf8ByteSize ≤ offset ∧ offset < front.utf8ByteSize + c.utf8Size := by
  induction sql using String.push_induction with
  | empty => simp at h
  | push sql c ih =>
    rw [String.utf8ByteSize_push] at h
    by_cases hsql : offset < sql.utf8ByteSize
    · obtain ⟨front, back, d, rfl, hfront, hd⟩ := ih hsql
      refine ⟨front, back.push c, d, ?_, hfront, hd⟩
      rw [← String.append_singleton, ← String.append_singleton, String.append_assoc,
        String.append_assoc]
    · refine ⟨sql, "", c, ?_, Nat.le_of_not_lt hsql, h⟩
      rw [String.append_empty, String.append_singleton]

/-- A character has four bytes at most, so the search gives up three at most. -/
theorem le_boundaryWithin_add_three (h : bytes < sql.utf8ByteSize) :
    bytes ≤ boundaryWithin sql bytes + 3 := by
  obtain ⟨front, back, c, rfl, hfront, hc⟩ := exists_char_at h
  have hboundary := le_boundaryWithin (isValid_append front (String.singleton c ++ back)) hfront
  have hfour := c.utf8Size_le_four
  omega

/-- Of two beginnings of a text the shorter one begins the longer one. -/
theorem exists_append_of_utf8ByteSize_le {front back other rest : String}
    (h : front ++ back = other ++ rest) (hle : other.utf8ByteSize ≤ front.utf8ByteSize) :
    ∃ more, front = other ++ more := by
  have hchars : front.toList ++ back.toList = other.toList ++ rest.toList := by
    rw [← String.toList_append, h, String.toList_append]
  rcases List.append_eq_append_iff.mp hchars with ⟨more, hother, _⟩ | ⟨more, hfront, _⟩
  · -- The other one would be longer, so nothing is missing.
    have htext : other = front ++ String.ofList more := by
      rw [← String.toList_inj, String.toList_append, String.toList_ofList, hother]
    have hsize : (String.ofList more).utf8ByteSize = 0 := by
      rw [htext, String.utf8ByteSize_append] at hle
      omega
    rw [String.utf8ByteSize_eq_zero_iff.mp hsize, String.append_empty] at htext
    exact ⟨"", by rw [htext, String.append_empty]⟩
  · refine ⟨String.ofList more, ?_⟩
    rw [← String.toList_inj, String.toList_append, String.toList_ofList, hfront]

/-- A text that is too long is cut at the boundary that the search ends at. -/
theorem fitting_of_lt (h : bytes < sql.utf8ByteSize) :
    (fitting sql bytes).utf8ByteSize = boundaryWithin sql bytes ∧
      ∃ back, sql = fitting sql bytes ++ back := by
  have hsplits := (sql.pos _ (isValid_boundaryWithin sql bytes)).splits
  rw [fitting, if_neg (Nat.not_le.mpr h)]
  constructor
  · have hoffset := congrArg String.Pos.Raw.byteIdx hsplits.offset_eq_rawEndPos
    rwa [String.offset_pos, String.byteIdx_rawEndPos, eq_comm] at hoffset
  · exact ⟨_, hsplits.eq_append⟩

/-- What is left of a text that is too long is the longest beginning that fits. -/
theorem isLongestFit_fitting (h : bytes < sql.utf8ByteSize) :
    IsLongestFit bytes sql (fitting sql bytes) := by
  obtain ⟨hsize, back, hback⟩ := fitting_of_lt h
  refine ⟨⟨back, hback⟩, hsize ▸ boundaryWithin_le sql bytes, fun other rest hother hfits => ?_⟩
  have hboundary : other.utf8ByteSize ≤ boundaryWithin sql bytes :=
    le_boundaryWithin (hother ▸ isValid_append other rest) hfits
  exact exists_append_of_utf8ByteSize_le (hback.symm.trans hother) (hsize ▸ hboundary)

/-- A statement within the limit is written in full, and so is every statement where there is
no limit. Of a longer one the longest beginning in whole characters that fits is written, and
three dots. The place of the cut is where the search back from the limit ends: it always ends
at a boundary between characters, and no more than three bytes below the limit. -/
theorem shortened_to_longest_fit (sql : String) :
    shortened none sql = sql ∧ ∀ limit : Nat,
      String.Pos.Raw.IsValid sql ⟨boundaryWithin sql limit⟩ ∧
      boundaryWithin sql limit ≤ limit ∧
      (sql.utf8ByteSize ≤ limit → shortened (some limit) sql = sql) ∧
      (limit < sql.utf8ByteSize → ∃ front, shortened (some limit) sql = front ++ "..." ∧
        IsLongestFit limit sql front ∧ front.utf8ByteSize = boundaryWithin sql limit ∧
        limit ≤ front.utf8ByteSize + 3) := by
  refine ⟨rfl, fun limit => ⟨isValid_boundaryWithin sql limit, boundaryWithin_le sql limit,
    fun hshort => ?_, fun hlong => ?_⟩⟩
  · rw [shortened, if_neg (Nat.not_lt.mpr hshort)]
  · have hsize := (fitting_of_lt hlong).1
    refine ⟨fitting sql limit, ?_, isLongestFit_fitting hlong, hsize, ?_⟩
    · rw [shortened, if_pos hlong]
    · rw [hsize]
      exact le_boundaryWithin_add_three hlong

/-- A limit at the end of a text, and one within its last character, of four bytes. -/
theorem shortened_to_longest_fit_within_character :
    "€😀".utf8ByteSize ≤ 7 ∧ shortened (some 7) "€😀" = "€😀" ∧
      6 < "€😀".utf8ByteSize ∧ shortened (some 6) "€😀" = "€..." ∧
      ∃ front, shortened (some 6) "€😀" = front ++ "..." ∧ IsLongestFit 6 "€😀" front ∧
        front.utf8ByteSize = boundaryWithin "€😀" 6 ∧ 6 ≤ front.utf8ByteSize + 3 := by
  have hshort : "€😀".utf8ByteSize ≤ 7 := by decide +kernel
  have hlong : 6 < "€😀".utf8ByteSize := by decide +kernel
  obtain ⟨-, hlimit⟩ := shortened_to_longest_fit "€😀"
  exact ⟨hshort, (hlimit 7).2.2.1 hshort, hlong, by decide +kernel, (hlimit 6).2.2.2 hlong⟩

end SqlText.Log
