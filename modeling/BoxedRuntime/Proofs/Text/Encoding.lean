/-
  BoxedRuntime.Proofs.Text.Encoding — which bytes are the encoding of a text.

  In each of the four forms (`ByteOrder.Form`) one can write any number that is not too
  large for it. A character is written in the first form that its code point fits, and
  no other number is written at all. So bytes that are not those of a text go wrong at a
  first place, behind the bytes of a text, and there is one of six things: a byte that
  continues nothing, a byte that begins nothing, a form with bytes missing, a number in
  too long a form, a surrogate, or a number that is no code point any more.

  Main statements:
  - `spell_append_inj`: whatever follows, the bytes tell the form and the number.
  - `character_or_illFormed`: bytes begin with a character or go wrong at once.
  - `not_encoded_iff`: bytes are no text exactly if they go wrong behind one.
  - `zero_mem_utf8_iff`: zero bytes are zero characters.
  - `fromUTF8?_eq_some_iff`, `fromUTF8?_eq_none_iff`: decoding inverts encoding, and
    nothing else is decoded.
-/
import BoxedRuntime.Proofs.Text.ByteOrder
import Mathlib.Data.List.Induction

namespace BoxedRuntime

/-! ## Forms -/

namespace ByteOrder

def forms : List Form := [⟨128, 0, 0⟩, ⟨32, 192, 1⟩, ⟨16, 224, 2⟩, ⟨8, 240, 3⟩]

/-- The numbers below can be written in the form. -/
def Form.limit (f : Form) : Nat := f.width * 64 ^ f.trailing

/-- The byte is a first one of the form. -/
def Form.Leads (f : Form) (b : UInt8) : Prop := f.mark ≤ b.toNat ∧ b.toNat < f.width + f.mark

theorem formOf_mem (n : Nat) : formOf n ∈ forms := by
  unfold formOf forms
  repeat' split
  all_goals simp

theorem forms_bounds : ∀ f ∈ forms, 0 < f.width ∧ f.width + f.mark ≤ 256 := by decide

theorem forms_apart : ∀ f ∈ forms, ∀ g ∈ forms, f ≠ g → f.width + f.mark ≤ g.mark ∨ g.width + g.mark ≤ f.mark := by
  decide

theorem lt_limit_formOf {n : Nat} (hn : n < 0x200000) : n < (formOf n).limit := by
  unfold formOf Form.limit
  repeat' split
  all_goals simp only [Nat.reducePow, Nat.reduceMul]
  all_goals omega

/-- No shorter form than its own takes a number. -/
theorem formOf_eq_or_lt {f : Form} (hf : f ∈ forms) {n : Nat} (hn : n < f.limit) :
    formOf n = f ∨ (formOf n).trailing < f.trailing := by
  simp only [forms, List.mem_cons, List.not_mem_nil, or_false] at hf
  rcases hf with rfl | rfl | rfl | rfl
  all_goals simp only [Form.limit, Nat.reducePow, Nat.reduceMul] at hn
  all_goals unfold formOf
  all_goals repeat' split
  all_goals simp
  all_goals omega

/-- Whatever follows, the bytes tell the form and the number. -/
theorem spell_append_inj {f g : Form} (hf : f ∈ forms) (hg : g ∈ forms) {m n : Nat} (hm : m < f.limit)
    (hn : n < g.limit) {r r' : List UInt8} (h : f.spell m ++ r = g.spell n ++ r') : f = g ∧ m = n := by
  obtain ⟨hfw, hfmark⟩ := forms_bounds f hf
  obtain ⟨hgw, hgmark⟩ := forms_bounds g hg
  have hfg : f = g := by
    by_contra hne
    rcases forms_apart f hf g hg hne with hmark | hmark
    · exact List.lt_irrefl _ (h ▸ spell_lt_of_mark hmark hfw hgw hgmark f.trailing g.trailing m n r r')
    · exact List.lt_irrefl _ (h ▸ spell_lt_of_mark hmark hgw hfw hfmark g.trailing f.trailing n m r' r)
  subst hfg
  refine ⟨rfl, ?_⟩
  rcases Nat.lt_trichotomy m n with hlt | heq | hlt
  · exact absurd (h ▸ spell_lt hfmark hlt hn r r') (List.lt_irrefl _)
  · exact heq
  · exact absurd (h ▸ spell_lt hfmark hlt hm r' r) (List.lt_irrefl _)

theorem leadByte_toNat {width mark : Nat} (hw : 0 < width) (hmark : width + mark ≤ 256) (n : Nat) :
    (leadByte width mark n).toNat = n % width + mark := by
  have := Nat.mod_lt n hw
  rw [leadByte, UInt8.toNat_ofNat']
  omega

/-- A first byte and as many bytes behind it as the form has write a number. -/
theorem exists_spell {width mark : Nat} {b : UInt8} (hlow : mark ≤ b.toNat) (hhigh : b.toNat < width + mark)
    {ts : List UInt8} (hts : ∀ t ∈ ts, Trails t) :
    ∃ n, n < width * 64 ^ ts.length ∧ b :: ts = spell width mark ts.length n := by
  induction ts using List.reverseRecOn with
  | nil =>
    refine ⟨b.toNat - mark, by simp; omega, ?_⟩
    rw [List.length_nil, spell, leadByte, Nat.mod_eq_of_lt (by omega), Nat.sub_add_cancel hlow, UInt8.ofNat_toNat]
  | append_singleton ts t ih =>
    obtain ⟨n, hn, hspell⟩ := ih fun u hu => hts u (List.mem_append_left [t] hu)
    obtain ⟨ht, ht'⟩ := hts t (List.mem_append_right ts (List.mem_singleton.mpr rfl))
    have hdiv : (n * 64 + (t.toNat - 128)) / 64 = n := by omega
    have htrail : trailByte (n * 64 + (t.toNat - 128)) = t := by
      rw [← UInt8.toNat_inj, trailByte_toNat]
      omega
    refine ⟨n * 64 + (t.toNat - 128), ?_, ?_⟩
    · rw [List.length_append, List.length_singleton, Nat.pow_succ, ← Nat.mul_assoc]
      omega
    · rw [List.length_append, List.length_singleton, spell, hdiv, htrail, ← hspell, List.cons_append]

end ByteOrder

open ByteOrder

namespace Encoding

/-! ## Texts and what is none -/

def encode (cs : List Char) : List UInt8 := cs.flatMap String.utf8EncodeChar

/-- The bytes are those of a sequence of characters. -/
def Encoded (bytes : List UInt8) : Prop := ∃ cs : List Char, bytes = encode cs

/-- No character can be read at the head of the bytes. -/
inductive IllFormed : List UInt8 → Prop
  /-- A byte that belongs behind a first byte. -/
  | stray {b : UInt8} (rest : List UInt8) : Trails b → IllFormed (b :: rest)
  /-- A byte that is a first one of no form. -/
  | unused {b : UInt8} (rest : List UInt8) : 248 ≤ b.toNat → IllFormed (b :: rest)
  /-- The bytes end, or go on with another first byte, before the form is complete. -/
  | truncated {f : Form} {b : UInt8} {ts rest : List UInt8} : f ∈ forms → f.Leads b → (∀ t ∈ ts, Trails t) →
      ts.length < f.trailing → (∀ t, rest.head? = some t → ¬ Trails t) → IllFormed (b :: ts ++ rest)
  /-- A number that a shorter form takes. -/
  | overlong {f : Form} {n : Nat} (rest : List UInt8) : f ∈ forms → n < f.limit →
      (formOf n).trailing < f.trailing → IllFormed (f.spell n ++ rest)
  | surrogate {n : Nat} (rest : List UInt8) : 0xD800 ≤ n → n ≤ 0xDFFF → IllFormed ((formOf n).spell n ++ rest)
  /-- A number above the last code point. -/
  | beyond {n : Nat} (rest : List UInt8) : 0x110000 ≤ n → n < 0x200000 → IllFormed ((formOf n).spell n ++ rest)

theorem encode_cons (c : Char) (cs : List Char) : encode (c :: cs) = String.utf8EncodeChar c ++ encode cs := rfl

/-! ## The form of a character -/

theorem toNat_valid (c : Char) : c.val.toNat < 0xD800 ∨ 0xDFFF < c.val.toNat ∧ c.val.toNat < 0x110000 := c.valid

theorem toNat_lt_limit (c : Char) : c.val.toNat < (formOf c.val.toNat).limit := by
  refine lt_limit_formOf ?_
  have := toNat_valid c
  omega

/-- Written in this form, the number of a character is that character's. -/
theorem character_of_spell {f : Form} (hf : f ∈ forms) {n : Nat} (hn : n < f.limit) {c : Char} {r r' : List UInt8}
    (h : f.spell n ++ r = String.utf8EncodeChar c ++ r') : f = formOf c.val.toNat ∧ n = c.val.toNat := by
  rw [encodeChar_eq] at h
  exact spell_append_inj hf (formOf_mem _) hn (toNat_lt_limit c) h

theorem encodeChar_append_inj {c d : Char} {r r' : List UInt8}
    (h : String.utf8EncodeChar c ++ r = String.utf8EncodeChar d ++ r') : c = d ∧ r = r' := by
  have hcd : c = d := by
    rw [encodeChar_eq c] at h
    have hval := (character_of_spell (formOf_mem _) (toNat_lt_limit c) h).2
    exact Char.ext (UInt32.toNat_inj.mp hval)
  subst hcd
  exact ⟨rfl, List.append_cancel_left h⟩

theorem encodeChar_eq_cons (c : Char) : ∃ b ts, String.utf8EncodeChar c = b :: ts ∧ (formOf c.val.toNat).Leads b ∧
    ts.length = (formOf c.val.toNat).trailing ∧ ∀ t ∈ ts, Trails t := by
  obtain ⟨ts, hspell, hlength, htrails⟩ := spell_eq_cons (formOf c.val.toNat).width (formOf c.val.toNat).mark
    (formOf c.val.toNat).trailing c.val.toNat
  obtain ⟨hw, hmark⟩ := forms_bounds _ (formOf_mem c.val.toNat)
  refine ⟨_, ts, by rw [encodeChar_eq, Form.spell, hspell], ?_, hlength, htrails⟩
  have := Nat.mod_lt (c.val.toNat / 64 ^ (formOf c.val.toNat).trailing) hw
  rw [Form.Leads, leadByte_toNat hw hmark]
  omega

theorem eq_of_leads {f g : Form} (hf : f ∈ forms) (hg : g ∈ forms) {b : UInt8} (hfb : f.Leads b) (hgb : g.Leads b) :
    f = g := by
  obtain ⟨hf₁, hf₂⟩ := hfb
  obtain ⟨hg₁, hg₂⟩ := hgb
  by_contra hne
  rcases forms_apart f hf g hg hne with h | h <;> omega

theorem leads_cases {f : Form} (hf : f ∈ forms) {b : UInt8} (hb : f.Leads b) : ¬ Trails b ∧ b.toNat < 248 := by
  obtain ⟨hlow, hhigh⟩ := hb
  unfold Trails
  simp only [forms, List.mem_cons, List.not_mem_nil, or_false] at hf
  rcases hf with rfl | rfl | rfl | rfl
  all_goals simp only at hlow hhigh
  all_goals omega

/-! ## Bytes that begin no character -/

theorem IllFormed.no_character {bytes : List UInt8} (h : IllFormed bytes) (c : Char) (r : List UInt8) :
    bytes ≠ String.utf8EncodeChar c ++ r := by
  intro heq
  obtain ⟨b', ts', hc, hleads, hlength, htrails⟩ := encodeChar_eq_cons c
  have hform := formOf_mem c.val.toNat
  have hvalid := toNat_valid c
  cases h with
  | stray rest hb =>
    rw [hc] at heq
    cases heq
    exact (leads_cases hform hleads).1 hb
  | unused rest hb =>
    rw [hc] at heq
    cases heq
    have := (leads_cases hform hleads).2
    omega
  | @truncated f b ts rest hf hb hts hshort hstop =>
    rw [hc, List.cons_append, List.cons_append] at heq
    obtain ⟨rfl, htail⟩ := List.cons.inj heq
    obtain rfl := eq_of_leads hf hform hb hleads
    -- The byte at which the form is cut off is one that continues the character.
    have hlt : ts.length < ts'.length := by omega
    have hget : (ts ++ rest)[ts.length]? = some ts'[ts.length] := by
      rw [htail, List.getElem?_append_left hlt, List.getElem?_eq_getElem hlt]
    rw [List.getElem?_append_right (Nat.le_refl _), Nat.sub_self, ← List.head?_eq_getElem?] at hget
    exact hstop _ hget (htrails _ (List.getElem_mem hlt))
  | overlong rest hf hn hlt =>
    obtain ⟨rfl, rfl⟩ := character_of_spell hf hn heq
    exact Nat.lt_irrefl _ hlt
  | surrogate rest hlow hhigh =>
    obtain ⟨-, rfl⟩ := character_of_spell (formOf_mem _) (lt_limit_formOf (by omega)) heq
    omega
  | beyond rest hlow hhigh =>
    obtain ⟨-, rfl⟩ := character_of_spell (formOf_mem _) (lt_limit_formOf hhigh) heq
    omega

theorem spell_ne_nil (f : Form) (n : Nat) : f.spell n ≠ [] := by
  obtain ⟨ts, h, -⟩ := spell_eq_cons f.width f.mark f.trailing n
  rw [Form.spell, h]
  exact List.cons_ne_nil _ _

theorem IllFormed.ne_nil {bytes : List UInt8} (h : IllFormed bytes) : bytes ≠ [] := by
  cases h with
  | stray | unused | truncated => exact List.cons_ne_nil _ _
  | overlong | surrogate | beyond => exact List.append_ne_nil_of_left_ne_nil (spell_ne_nil _ _) _

theorem IllFormed.not_encoded {bytes : List UInt8} (h : IllFormed bytes) : ¬ Encoded bytes := by
  rintro ⟨cs, rfl⟩
  cases cs with
  | nil => exact h.ne_nil rfl
  | cons c cs => exact h.no_character c (encode cs) rfl

theorem encoded_append_iff (cs : List Char) {rest : List UInt8} : Encoded (encode cs ++ rest) ↔ Encoded rest := by
  constructor
  · rintro ⟨ds, h⟩
    induction cs generalizing ds with
    | nil => exact ⟨ds, h⟩
    | cons c cs ih =>
      cases ds with
      | nil =>
        obtain ⟨b, ts, hc, -⟩ := encodeChar_eq_cons c
        rw [encode_cons, hc] at h
        cases h
      | cons d ds =>
        rw [encode_cons, encode_cons, List.append_assoc] at h
        exact ih ds (encodeChar_append_inj h).2
  · rintro ⟨ds, rfl⟩
    exact ⟨cs ++ ds, List.flatMap_append.symm⟩

/-! ## Reading one character -/

/-- As many bytes as belong behind a first byte, up to `k` of them. -/
theorem split_trailing (k : Nat) (bytes : List UInt8) : ∃ ts rest, bytes = ts ++ rest ∧ (∀ t ∈ ts, Trails t) ∧
    ts.length ≤ k ∧ (ts.length < k → ∀ t, rest.head? = some t → ¬ Trails t) := by
  induction k generalizing bytes with
  | zero => exact ⟨[], bytes, rfl, by simp, Nat.le_refl 0, fun h => absurd h (Nat.lt_irrefl 0)⟩
  | succ k ih =>
    cases bytes with
    | nil => exact ⟨[], [], rfl, by simp, Nat.zero_le _, by simp⟩
    | cons b bytes =>
      by_cases hb : Trails b
      · obtain ⟨ts, rest, rfl, hts, hlength, hstop⟩ := ih bytes
        refine ⟨b :: ts, rest, rfl, List.forall_mem_cons.mpr ⟨hb, hts⟩, Nat.succ_le_succ hlength, fun h => ?_⟩
        exact hstop (Nat.lt_of_succ_lt_succ h)
      · refine ⟨[], b :: bytes, rfl, by simp, Nat.zero_le _, fun _ t ht => ?_⟩
        cases ht
        exact hb

theorem first_byte (b : UInt8) : Trails b ∨ 248 ≤ b.toNat ∨ ∃ f ∈ forms, f.Leads b := by
  simp only [forms, List.mem_cons, List.not_mem_nil, or_false, exists_eq_or_imp, exists_eq_left, Form.Leads, Trails]
  have := b.toNat_lt
  omega

/-- A number in its own form is that of a character or of none. -/
theorem character_or_illFormed_of_spell {n : Nat} (hn : n < 0x200000) (rest : List UInt8) :
    (∃ c, (formOf n).spell n = String.utf8EncodeChar c) ∨ IllFormed ((formOf n).spell n ++ rest) := by
  by_cases hvalid : n.isValidChar
  · refine .inl ⟨Char.ofNatAux n hvalid, ?_⟩
    rw [encodeChar_eq]
    rfl
  · right
    have hinvalid : ¬ (n < 0xD800 ∨ 0xDFFF < n ∧ n < 0x110000) := hvalid
    by_cases hlow : n ≤ 0xDFFF
    · exact .surrogate rest (by omega) hlow
    · exact .beyond rest (by omega) hn

theorem forms_limit : ∀ f ∈ forms, f.limit ≤ 0x200000 := by decide

theorem character_or_illFormed {bytes : List UInt8} (h : bytes ≠ []) :
    (∃ c rest, bytes = String.utf8EncodeChar c ++ rest) ∨ IllFormed bytes := by
  obtain ⟨b, tail, rfl⟩ := List.exists_cons_of_ne_nil h
  rcases first_byte b with hb | hb | ⟨f, hf, hb⟩
  · exact .inr (.stray tail hb)
  · exact .inr (.unused tail hb)
  obtain ⟨ts, rest, rfl, hts, hlength, hstop⟩ := split_trailing f.trailing tail
  rw [← List.cons_append]
  rcases Nat.lt_or_eq_of_le hlength with hshort | hcomplete
  · exact .inr (.truncated hf hb hts hshort (hstop hshort))
  obtain ⟨n, hn, hspell⟩ := exists_spell hb.1 hb.2 hts
  rw [hcomplete] at hn hspell
  rw [hspell]
  rcases formOf_eq_or_lt hf hn with rfl | hlonger
  · rcases character_or_illFormed_of_spell (Nat.lt_of_lt_of_le hn (forms_limit _ hf)) rest with ⟨c, hc⟩ | hill
    · exact .inl ⟨c, rest, congrArg (· ++ rest) hc⟩
    · exact .inr hill
  · exact .inr (.overlong rest hf hn hlonger)

/-! ## Reading to the end -/

/-- Bytes are read to their end or up to where they go wrong. -/
theorem encode_append_illFormed (bytes : List UInt8) :
    ∃ cs rest, bytes = encode cs ++ rest ∧ (rest = [] ∨ IllFormed rest) := by
  generalize hk : bytes.length = k
  induction k using Nat.strongRecOn generalizing bytes with
  | ind k ih =>
    by_cases hnil : bytes = []
    · exact ⟨[], [], hnil, .inl rfl⟩
    rcases character_or_illFormed hnil with ⟨c, rest, rfl⟩ | hill
    · obtain ⟨b, ts, hc, -⟩ := encodeChar_eq_cons c
      have hless : rest.length < k := by
        rw [← hk, hc, List.length_append, List.length_cons]
        omega
      obtain ⟨cs, rest', rfl, hrest⟩ := ih _ hless rest rfl
      exact ⟨c :: cs, rest', by rw [encode_cons, List.append_assoc], hrest⟩
    · exact ⟨[], bytes, rfl, .inr hill⟩

theorem not_encoded_iff {bytes : List UInt8} :
    ¬ Encoded bytes ↔ ∃ cs rest, bytes = encode cs ++ rest ∧ IllFormed rest := by
  constructor
  · intro h
    obtain ⟨cs, rest, rfl, rfl | hill⟩ := encode_append_illFormed bytes
    · exact absurd ⟨cs, List.append_nil _⟩ h
    · exact ⟨cs, rest, rfl, hill⟩
  · rintro ⟨cs, rest, rfl, hill⟩
    rw [encoded_append_iff]
    exact hill.not_encoded

/-! ## Zero bytes -/

/-- The only character with a zero byte is the zero character. -/
theorem zero_mem_encodeChar_iff {c : Char} : 0 ∈ String.utf8EncodeChar c ↔ c.val.toNat = 0 := by
  obtain ⟨b, ts, hc, hleads, -, htrails⟩ := encodeChar_eq_cons c
  constructor
  · intro h
    rw [hc] at h
    rcases List.mem_cons.mp h with rfl | hts
    · have hascii : Form.spell ⟨128, 0, 0⟩ 0 ++ ts = String.utf8EncodeChar c ++ [] := by
        rw [hc, List.append_nil]
        rfl
      exact (character_of_spell (by decide) (by decide) hascii).2.symm
    · exact absurd (htrails 0 hts).1 (by decide)
  · intro h
    rw [encodeChar_eq, h]
    decide

theorem zero_mem_utf8_iff {s : String} : 0 ∈ utf8 s ↔ ∃ c ∈ s.toList, c.val.toNat = 0 := by
  simp only [utf8_eq, List.mem_flatMap, zero_mem_encodeChar_iff]

/-! ## Decoding -/

theorem encoded_iff_utf8 {bytes : List UInt8} : Encoded bytes ↔ ∃ s, bytes = utf8 s := by
  constructor
  · rintro ⟨cs, rfl⟩
    exact ⟨String.ofList cs, by rw [utf8_eq, String.toList_ofList]; rfl⟩
  · rintro ⟨s, rfl⟩
    exact ⟨s.toList, utf8_eq s⟩

theorem fromUTF8?_eq_some_iff {bytes : List UInt8} {s : String} :
    String.fromUTF8? bytes.toByteArray = some s ↔ bytes = utf8 s := by
  unfold String.fromUTF8?
  constructor
  · intro h
    split at h
    · cases h
      exact List.toList_data_toByteArray.symm
    · cases h
  · rintro rfl
    have harray : (utf8 s).toByteArray = s.toByteArray := ByteArray.ext (Array.ext' List.toList_data_toByteArray)
    simp only [harray]
    rw [dif_pos s.isValidUTF8]
    rfl

theorem fromUTF8?_eq_none_iff {bytes : List UInt8} : String.fromUTF8? bytes.toByteArray = none ↔ ¬ Encoded bytes := by
  rw [Option.eq_none_iff_forall_ne_some, encoded_iff_utf8]
  simp only [ne_eq, fromUTF8?_eq_some_iff, not_exists]

end Encoding
end BoxedRuntime
