/-
  BoxedRuntime.Proofs.Literal.Language — the language of literals.

  A literal is a tag's name, a colon and a text; what the text means is a matter of the
  tag (`Denotes`). Any string at all has one of three readings: it denotes a value, it is
  refused, or it names a number that its kind has no value for, which is a fault of boxing
  and not of the literal. `Reads` gives the readings, rule by rule and without reference to
  how a literal is taken apart; the last rule refuses what the others leave over.

  Numbers go through a machine word: a numeral of an integer that fits none is refused
  under every tag, before any question of a kind's domain.

  Main statements:
  - `read_tagged`: what is read after the first colon is decided by the tag before it.
  - `exists_denotes`: a text that is accepted under a tag denotes something.
  - `Reads.read`: a reading that the language gives a string is what reading it does.
  - `unique_reading`: the language gives every string one reading, which reading it finds.
-/
import BoxedRuntime.Literal
import BoxedRuntime.Proofs.Routine.Packing
import BoxedRuntime.Proofs.Text.Numerals

namespace BoxedRuntime.Literal

open Numeral (Spells)

/-! ## Readings -/

inductive Reading where
  | value (p : Payload)
  | refused (e : LiteralError)
  | fault (f : Fault)

/-- What such a reading comes to in a session: one object more, nothing, or one fault. -/
def Reading.after (s : Session) : Reading → Except Fault (Except LiteralError Handle) × Session
  | value p => (.ok (.ok ⟨s.nextId, liveMagic, p.tag, p⟩), { s with nextId := s.nextId + 1 })
  | refused e => (.ok (.error e), s)
  | fault f => (.error f, s.raised f)

theorem Reading.after_inj {r r' : Reading} {s : Session} (h : r.after s = r'.after s) : r = r' := by
  cases r <;> cases r' <;> simp_all [Reading.after]

/-! ## The language -/

/-- What a text means under a tag. -/
inductive Denotes : Tag → String → Reading → Prop
  | null (text : String) : Denotes .null text (.value .null)
  | string (text : String) : Denotes .string text (.value (.string text))
  | boolTrue : Denotes .bool "true" (.value (.bool true))
  | boolFalse : Denotes .bool "false" (.value (.bool false))
  | int {text : String} {n : Int64} : Spells text.toList n.toInt → Denotes .int text (.value (.int n))
  | byte {text : String} {b : UInt8} : Spells text.toList b.toNat → Denotes .byte text (.value (.byte b))
  | noByte {text : String} {n : Int64} : Spells text.toList n.toInt → ¬ (0 ≤ n.toInt ∧ n.toInt ≤ 255) →
      Denotes .byte text (.fault (.range "box_byte" (Numeral.word n ++ " is not in 0..=255")))
  /-- A character other than a digit stands for itself. -/
  | char {c : Char} : ¬ ('0' ≤ c ∧ c ≤ '9') → Denotes .char (String.ofList [c]) (.value (.char c))
  /-- Every Unicode scalar value has a number. -/
  | codePoint {text : String} {c : Char} : Spells text.toList c.toNat → Denotes .char text (.value (.char c))
  | noCodePoint {text : String} {n : Int64} : Spells text.toList n.toInt →
      ¬ (0 ≤ n.toInt ∧ n.toInt < 0xD800 ∨ 0xDFFF < n.toInt ∧ n.toInt ≤ 0x10FFFF) →
      Denotes .char text (.fault (.range "box_char" (Numeral.word n ++ " is not a unicode scalar value")))
  | real {text : String} {x : Binary64} : Binary64.read? text.toList = some x → Denotes .real text (.value (.real x))

/-- The string has these texts before and after its first colon. -/
def Tagged (literal name text : String) : Prop := literal = name ++ ":" ++ text ∧ ':' ∉ name.toList

inductive Reads (literal : String) : Reading → Prop
  | null : literal = "null" → Reads literal (.value .null)
  | missingTag : literal ≠ "null" → ':' ∉ literal.toList → Reads literal (.refused (.missingTag literal))
  | unknownTag {name text : String} : Tagged literal name text → (∀ t : Tag, t.name ≠ name) →
      Reads literal (.refused (.unknownTag name))
  | notWritable {t : Tag} {text : String} : Tagged literal t.name text → t = .list ∨ t = .record →
      Reads literal (.refused (.notWritable t))
  | denotes {t : Tag} {text : String} {r : Reading} : Tagged literal t.name text → Denotes t text r → Reads literal r
  | badValue {t : Tag} {text : String} : Tagged literal t.name text → t ≠ .list → t ≠ .record →
      (∀ r, ¬ Denotes t text r) → Reads literal (.refused (.badValue t text))

/-! ## The first colon -/

theorem toList_tagged {literal name text : String} (h : Tagged literal name text) :
    literal.toList = name.toList ++ ':' :: text.toList := by
  rw [h.1]
  simp

theorem Tagged.splitTag? {literal name text : String} (h : Tagged literal name text) :
    splitTag? literal.toList = some (name.toList, text.toList) := by
  have hname : ∀ c ∈ name.toList, decide (c ≠ ':') = true := by
    intro c hc
    have hne : c ≠ ':' := fun heq => h.2 (heq ▸ hc)
    simpa using hne
  have hstop : ∀ c ∈ (':' :: text.toList).head?, decide (c ≠ ':') = false := by simp
  rw [Literal.splitTag?, toList_tagged h, dropWhile_append_stop hname hstop, takeWhile_append_stop hname hstop]

theorem splitTag?_eq_none {cs : List Char} (h : ':' ∉ cs) : splitTag? cs = none := by
  have hdrop : cs.dropWhile (· ≠ ':') = [] := by
    have hall : ∀ c ∈ cs, decide (c ≠ ':') = true := by
      intro c hc
      have hne : c ≠ ':' := fun heq => h (heq ▸ hc)
      simpa using hne
    simpa using dropWhile_append_stop hall (r := []) (by simp)
  rw [splitTag?, hdrop]

theorem Tagged.ne_null {literal name text : String} (h : Tagged literal name text) : literal ≠ "null" := by
  rintro rfl
  have hcolon : ':' ∈ "null".toList := toList_tagged h ▸ List.mem_append_right _ List.mem_cons_self
  exact absurd hcolon (by decide)

theorem exists_tagged {literal : String} (h : ':' ∈ literal.toList) : ∃ name text, Tagged literal name text := by
  obtain ⟨name, text, hsplit, hname⟩ := List.eq_append_cons_of_mem h
  refine ⟨String.ofList name, String.ofList text, ?_, by simpa using hname⟩
  apply String.toList_inj.mp
  simp [hsplit]

theorem read_tagged {literal text : String} {t : Tag} (h : Tagged literal t.name text) :
    read literal =
      if !writable t then return .error (.notWritable t)
      else (value? t text.toList).elim (return .error (.badValue t text)) (.ok <$> ·) := by
  rw [read, if_neg h.ne_null, h.splitTag?]
  simp only [String.ofList_toList, Tag.ofName?_name]
  cases value? t text.toList <;> rfl

/-! ## Texts under a tag -/

theorem isDigit_eq_false_iff {c : Char} : c.isDigit = false ↔ ¬ ('0' ≤ c ∧ c ≤ '9') := by
  rw [← Bool.not_eq_true, Char.isDigit_iff_toNat]
  rfl

theorem charWord?_eq_some_iff {cs : List Char} {n : Int64} :
    charWord? cs = some n ↔ (∃ c, cs = [c] ∧ c.isDigit = false ∧ n = Int64.ofNat c.toNat) ∨ Spells cs n.toInt := by
  rw [← Numeral.readInt64?_eq_some_iff]
  unfold charWord?
  split
  · rename_i c
    by_cases hc : c.isDigit = true
    · simp [hc]
    · -- No numeral is a single character that is not a digit.
      have hnone : Numeral.readInt64? [c] = none :=
        Numeral.readInt64?_eq_none_iff.mpr fun m hm => hc hm.singleton
      rw [if_neg hc, hnone]
      constructor
      · intro h
        cases h
        exact Or.inl ⟨c, rfl, by simpa using hc, rfl⟩
      · intro h
        rcases h with ⟨c', hcs, -, rfl⟩ | h
        · cases hcs
          rfl
        · cases h
  · rename_i hcs
    have hnone : ¬ ∃ c, cs = [c] ∧ c.isDigit = false ∧ n = Int64.ofNat c.toNat := fun ⟨c, h, _⟩ => hcs c h
    simp [hnone]

def Reading.ofOutcome : Except Fault Payload → Reading
  | .ok p => .value p
  | .error f => .fault f

theorem Reading.after_ofOutcome {make : Op Handle} {o : Except Fault Payload} (h : make.Settles o) (s : Session) :
    (Except.ok <$> make : Op (Except LiteralError Handle)) s = (Reading.ofOutcome o).after s := by
  rw [map_eq_pure_bind, Op.bind_apply, h s]
  cases o <;> rfl

/-- A text of the language is accepted under its tag, and what it makes is what it denotes. -/
theorem Denotes.settles {t : Tag} {text : String} {r : Reading} (h : Denotes t text r) :
    ∃ make o, value? t text.toList = some make ∧ make.Settles o ∧ r = .ofOutcome o := by
  cases h with
  | null => exact ⟨_, _, rfl, Op.settles_box .null, rfl⟩
  | string => exact ⟨_, _, rfl, Op.settles_box _, by rw [String.ofList_toList]; rfl⟩
  | boolTrue => exact ⟨_, _, rfl, Op.settles_box (.bool true), rfl⟩
  | boolFalse => exact ⟨_, _, rfl, Op.settles_box (.bool false), rfl⟩
  | int h =>
    refine ⟨_, _, ?_, Op.settles_box _, rfl⟩
    rw [value?, Numeral.readInt64?_eq_some_iff.mpr h]
    rfl
  | @byte _ b h =>
    have hword : Numeral.readInt64? text.toList = some (Int64.ofNat b.toNat) :=
      Numeral.readInt64?_eq_some_iff.mpr (by rwa [toInt_ofNat_byte])
    refine ⟨_, .ok (.byte b), by rw [value?, hword]; rfl, ?_, rfl⟩
    -- The word of a byte packs into that byte again.
    exact Boxing.packed_scalar (p := .byte b) rfl ▸ Boxing.scalar_settles .byte _
  | @noByte _ n h hn =>
    refine ⟨_, .error _, by rw [value?, Numeral.readInt64?_eq_some_iff.mpr h]; rfl, ?_, rfl⟩
    exact Boxing.packed_outside (show Tag.byte.isScalar = true from rfl) hn ▸ Boxing.scalar_settles .byte n
  | @char c hc =>
    have hword : charWord? (String.ofList [c]).toList = some (Int64.ofNat c.toNat) :=
      charWord?_eq_some_iff.mpr (Or.inl ⟨c, String.toList_ofList, isDigit_eq_false_iff.mpr hc, rfl⟩)
    refine ⟨_, .ok (.char c), by rw [value?, hword]; rfl, ?_, rfl⟩
    exact Boxing.packed_scalar (p := .char c) rfl ▸ Boxing.scalar_settles .char _
  | @codePoint _ c h =>
    have hword : charWord? text.toList = some (Int64.ofNat c.toNat) :=
      charWord?_eq_some_iff.mpr (Or.inr (by rwa [toInt_ofNat_char]))
    refine ⟨_, .ok (.char c), by rw [value?, hword]; rfl, ?_, rfl⟩
    exact Boxing.packed_scalar (p := .char c) rfl ▸ Boxing.scalar_settles .char _
  | @noCodePoint _ n h hn =>
    refine ⟨_, .error _, by rw [value?, charWord?_eq_some_iff.mpr (Or.inr h)]; rfl, ?_, rfl⟩
    exact Boxing.packed_outside (show Tag.char.isScalar = true from rfl) hn ▸ Boxing.scalar_settles .char n
  | real h =>
    refine ⟨_, _, ?_, Op.settles_box _, rfl⟩
    rw [value?, h]
    rfl

/-- A numeral of a word is a byte's or no byte's. -/
theorem exists_denotes_byte {text : String} {n : Int64} (h : Spells text.toList n.toInt) :
    ∃ r, Denotes .byte text r := by
  by_cases hn : 0 ≤ n.toInt ∧ n.toInt ≤ 255
  · obtain ⟨b, -, rfl⟩ := byte?_eq_some hn
    rw [toInt_ofNat_byte] at h
    exact ⟨_, .byte h⟩
  · exact ⟨_, .noByte h hn⟩

theorem exists_denotes_char {text : String} {n : Int64} (h : Spells text.toList n.toInt) :
    ∃ r, Denotes .char text r := by
  by_cases hn : Tag.char.Domain n.toInt
  · obtain ⟨c, -, rfl⟩ := scalarValue?_eq_some hn
    rw [toInt_ofNat_char] at h
    exact ⟨_, .codePoint h⟩
  · exact ⟨_, .noCodePoint h hn⟩

theorem exists_denotes {t : Tag} {text : String} {make : Op Handle} (h : value? t text.toList = some make) :
    ∃ r, Denotes t text r := by
  cases t <;> simp only [value?, Option.map_eq_some_iff, reduceCtorEq] at h
  case null => exact ⟨_, .null text⟩
  case string => exact ⟨_, .string text⟩
  case bool =>
    obtain ⟨b, hb, -⟩ := h
    unfold readBool? at hb
    split at hb
    · rename_i htrue
      obtain rfl := String.toList_inj.mp htrue
      exact ⟨_, .boolTrue⟩
    · split at hb
      · rename_i hfalse
        obtain rfl := String.toList_inj.mp hfalse
        exact ⟨_, .boolFalse⟩
      · cases hb
  case int =>
    obtain ⟨n, hn, -⟩ := h
    exact ⟨_, .int (Numeral.readInt64?_eq_some_iff.mp hn)⟩
  case byte =>
    obtain ⟨n, hn, -⟩ := h
    exact exists_denotes_byte (Numeral.readInt64?_eq_some_iff.mp hn)
  case char =>
    obtain ⟨n, hn, -⟩ := h
    rcases charWord?_eq_some_iff.mp hn with ⟨c, hc, hdigit, -⟩ | hspells
    · obtain rfl : text = String.ofList [c] := String.toList_inj.mp (by rw [hc, String.toList_ofList])
      exact ⟨_, .char (isDigit_eq_false_iff.mp hdigit)⟩
    · exact exists_denotes_char hspells
  case real =>
    obtain ⟨x, hx, -⟩ := h
    exact ⟨_, .real hx⟩

/-! ## Strings -/

theorem Denotes.writable {t : Tag} {text : String} {r : Reading} (h : Denotes t text r) : writable t = true := by
  cases h <;> rfl

theorem Reads.read {literal : String} {r : Reading} (h : Reads literal r) (s : Session) :
    Literal.read literal s = r.after s := by
  cases h with
  | null hnull => rw [Literal.read, if_pos hnull]; rfl
  | missingTag hnull hcolon => rw [Literal.read, if_neg hnull, splitTag?_eq_none hcolon]; rfl
  | @unknownTag name text hsplit hname =>
    have hnone : Tag.ofName? name = none := by
      rw [Option.eq_none_iff_forall_ne_some]
      exact fun t ht => hname t (Tag.name_of_ofName? ht)
    rw [Literal.read, if_neg hsplit.ne_null, hsplit.splitTag?]
    simp only [String.ofList_toList, hnone]
    rfl
  | notWritable hsplit ht =>
    rw [read_tagged hsplit]
    rcases ht with rfl | rfl <;> rfl
  | denotes hsplit hdenotes =>
    obtain ⟨make, o, hmake, hsettles, rfl⟩ := hdenotes.settles
    rw [read_tagged hsplit, hdenotes.writable, hmake]
    exact Reading.after_ofOutcome hsettles s
  | @badValue t text hsplit hlist hrecord hnone =>
    have hvalue : value? t text.toList = none := by
      cases hv : value? t text.toList with
      | none => rfl
      | some make =>
        obtain ⟨r, hr⟩ := exists_denotes hv
        exact absurd hr (hnone r)
    have hwritable : writable t = true := by cases t <;> simp_all [writable]
    rw [read_tagged hsplit, hwritable, hvalue]
    rfl

/-- A literal that is a fault is one of a kind's domain. -/
theorem Reads.fault_kind {literal : String} {f : Fault} (h : Reads literal (.fault f)) : f.kind = .rangeViolation := by
  cases h with
  | denotes _ hdenotes => cases hdenotes <;> rfl

theorem exists_reads (literal : String) : ∃ r, Reads literal r := by
  by_cases hnull : literal = "null"
  · exact ⟨_, .null hnull⟩
  by_cases hcolon : ':' ∈ literal.toList
  · obtain ⟨name, text, hsplit⟩ := exists_tagged hcolon
    by_cases hname : ∀ t : Tag, t.name ≠ name
    · exact ⟨_, .unknownTag hsplit hname⟩
    · obtain ⟨t, rfl⟩ : ∃ t : Tag, t.name = name := by simpa using hname
      by_cases hwritable : t = .list ∨ t = .record
      · exact ⟨_, .notWritable hsplit hwritable⟩
      · obtain ⟨hlist, hrecord⟩ := not_or.mp hwritable
        by_cases hdenotes : ∃ r, Denotes t text r
        · obtain ⟨r, hr⟩ := hdenotes
          exact ⟨r, .denotes hsplit hr⟩
        · exact ⟨_, .badValue hsplit hlist hrecord (not_exists.mp hdenotes)⟩
  · exact ⟨_, .missingTag hnull hcolon⟩

/-- Every string has one reading in the language of literals, and reading it finds that one. -/
theorem unique_reading (literal : String) :
    ∃ r, (∀ s, Literal.read literal s = r.after s) ∧ ∀ r', Reads literal r' ↔ r' = r := by
  obtain ⟨r, hr⟩ := exists_reads literal
  -- Reading has one result, so two readings of the language cannot differ.
  refine ⟨r, hr.read, fun r' => ⟨fun hr' => ?_, fun heq => heq ▸ hr⟩⟩
  exact Reading.after_inj ((hr'.read {}).symm.trans (hr.read {}))

/-- The largest word is no byte; the next integer is no word. -/
example (s : Session) :
    Literal.read "byte:9223372036854775807" s =
        (Reading.fault (.range "box_byte" "9223372036854775807 is not in 0..=255")).after s ∧
      Literal.read "byte:9223372036854775808" s =
        (Reading.refused (.badValue .byte "9223372036854775808")).after s :=
  ⟨rfl, rfl⟩

end BoxedRuntime.Literal
