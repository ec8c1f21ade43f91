import CatalogSync.Text.Percent

/-! Percent-encoding loses nothing and leaves nothing that could end the encoded text.

What a byte is written as is never the beginning of what another one is written as, so a text is read off its encoded
form byte by byte. No slash and no question mark is written, so the encoded form also ends where the first of them
stands. -/

namespace CatalogSync.Text.Percent

variable {b b' : UInt8} {bs bs' : List UInt8} {u v : List Char} {s t : String} {c : Char}

/-! ### Bytes -/

theorem hexDigit_inj {m n : Nat} (hm : m < 16) (hn : n < 16) (h : hexDigit m = hexDigit n) : m = n := by
  have hall : ∀ m < 16, ∀ n < 16, hexDigit m = hexDigit n → m = n := by decide
  exact hall m hm n hn h

theorem escape_append_inj (h : escape b ++ u = escape b' ++ v) : b = b' ∧ u = v := by
  obtain ⟨hhigh, hlow, hrest⟩ : hexDigit (b.toNat / 16) = hexDigit (b'.toNat / 16) ∧
      hexDigit (b.toNat % 16) = hexDigit (b'.toNat % 16) ∧ u = v := by simpa [escape] using h
  have hb := b.toNat_lt
  have hb' := b'.toNat_lt
  replace hhigh := hexDigit_inj (by omega) (by omega) hhigh
  replace hlow := hexDigit_inj (by omega) (by omega) hlow
  exact ⟨UInt8.toNat_inj.mp (by omega), hrest⟩

theorem toNat_ofNat (b : UInt8) : (Char.ofNat b.toNat).toNat = b.toNat := by
  have hb := b.toNat_lt
  rw [Char.ofNat, dif_pos (Or.inl (by omega))]
  rfl

theorem ofNat_inj (h : Char.ofNat b.toNat = Char.ofNat b'.toNat) : b = b' := by
  have hnat := congrArg Char.toNat h
  rw [toNat_ofNat, toNat_ofNat] at hnat
  exact UInt8.toNat_inj.mp hnat

theorem ofNat_ne_percent (h : unreserved b = true) : Char.ofNat b.toNat ≠ '%' := by
  intro hb
  simp [unreserved, hb] at h

theorem encodeByte_append_inj (h : encodeByte unreserved b ++ u = encodeByte unreserved b' ++ v) : b = b' ∧ u = v := by
  unfold encodeByte at h
  cases hb : unreserved b <;> cases hb' : unreserved b' <;> rw [hb, hb'] at h
  · exact escape_append_inj h
  · exact absurd (List.cons.inj h).1.symm (ofNat_ne_percent hb')
  · exact absurd (List.cons.inj h).1 (ofNat_ne_percent hb)
  · obtain ⟨hchar, hrest⟩ := List.cons.inj h
    exact ⟨ofNat_inj hchar, hrest⟩

/-! ### Texts -/

theorem encodeByte_ne_nil (b : UInt8) : encodeByte unreserved b ≠ [] := by
  unfold encodeByte escape
  split <;> simp

theorem flatMap_encodeByte_inj (h : bs.flatMap (encodeByte unreserved) = bs'.flatMap (encodeByte unreserved)) :
    bs = bs' := by
  induction bs generalizing bs' with
  | nil =>
    cases bs' with
    | nil => rfl
    | cons b' bs' => simp [encodeByte_ne_nil] at h
  | cons b bs ih =>
    cases bs' with
    | nil => simp [encodeByte_ne_nil] at h
    | cons b' bs' =>
      obtain ⟨rfl, hrest⟩ := encodeByte_append_inj h
      rw [ih hrest]

theorem toList_encode (s : String) : (encode s).toList = (bytes s).flatMap (encodeByte unreserved) :=
  String.toList_ofList

theorem encode_inj (h : (encode s).toList = (encode t).toList) : s = t := by
  rw [toList_encode, toList_encode] at h
  exact bytes_inj (flatMap_encodeByte_inj h)

/-- Slashes and question marks end the parts of an address. -/
def endsPart (c : Char) : Bool := c = '/' || c = '?'

theorem endsPart_hexDigit {n : Nat} (hn : n < 16) : endsPart (hexDigit n) = false := by
  have hall : ∀ n < 16, endsPart (hexDigit n) = false := by decide
  exact hall n hn

theorem endsPart_ofNat (h : unreserved b = true) : endsPart (Char.ofNat b.toNat) = false := by
  rw [Bool.eq_false_iff]
  intro hends
  have hcases : Char.ofNat b.toNat = '/' ∨ Char.ofNat b.toNat = '?' := by simpa [endsPart] using hends
  rcases hcases with hc | hc <;> simp [unreserved, hc] at h

theorem endsPart_of_mem_encodeByte (h : c ∈ encodeByte unreserved b) : endsPart c = false := by
  have hb := b.toNat_lt
  unfold encodeByte escape at h
  split at h
  · rename_i hplain
    rw [List.mem_singleton.mp h]
    exact endsPart_ofNat hplain
  · simp only [List.mem_cons, List.not_mem_nil, or_false] at h
    rcases h with rfl | rfl | rfl
    · rfl
    · exact endsPart_hexDigit (by omega)
    · exact endsPart_hexDigit (by omega)

theorem endsPart_of_mem_encode (h : c ∈ (encode s).toList) : endsPart c = false := by
  rw [toList_encode] at h
  obtain ⟨b, -, hc⟩ := List.mem_flatMap.mp h
  exact endsPart_of_mem_encodeByte hc

/-- The encoded form ends where an end of a part stands. -/
theorem takeWhile_encode_append (hu : ∀ c ∈ u.head?, endsPart c = true) :
    ((encode s).toList ++ u).takeWhile (!endsPart ·) = (encode s).toList := by
  have hplain : ∀ c ∈ (encode s).toList, (!endsPart c) = true := fun c hc => by rw [endsPart_of_mem_encode hc]; rfl
  rw [List.takeWhile_append_of_pos hplain]
  cases u with
  | nil => rw [List.takeWhile_nil, List.append_nil]
  | cons c u => simp [hu c rfl]

theorem encode_append_inj (hu : ∀ c ∈ u.head?, endsPart c = true) (hv : ∀ c ∈ v.head?, endsPart c = true)
    (h : (encode s).toList ++ u = (encode t).toList ++ v) : s = t ∧ u = v := by
  have hencode : (encode s).toList = (encode t).toList := by
    rw [← takeWhile_encode_append hu, h, takeWhile_encode_append hv]
  rw [hencode] at h
  exact ⟨encode_inj hencode, List.append_cancel_left h⟩

end CatalogSync.Text.Percent
