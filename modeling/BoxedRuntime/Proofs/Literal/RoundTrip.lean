/-
  BoxedRuntime.Proofs.Literal.RoundTrip — literals written and read back.

  A value is written as its tag, a colon and a text. Two texts are at hand for it: the
  numeral of its word, if it has one, and its rendering as a string. The numeral is read
  back as the word it is of, under every tag that reads words: a numeral of one digit is
  the code point, although a character that is no digit would stand for itself. So what
  comes of it is what comes of boxing the word, the value or the fault.

  The rendering is read back as the value where it is the value's own text. That of a byte
  or a character is not: it is written for a reader and has marks of its own.

  Main statements:
  - `read_word`: reading the numeral of a word under a tag is boxing the word.
  - `Denotes.restores`: a text that denotes a value's payload under its tag restores it.
  - `round_trips`: numerals restore scalars, renderings restore what has a plain text, and
    rendering a rendering changes nothing.
-/
import BoxedRuntime.Proofs.Literal.Language
import BoxedRuntime.Proofs.Routine.Contract
import BoxedRuntime.Value.Equality

namespace BoxedRuntime.Literal

def write (t : Tag) (text : String) : String := t.name ++ ":" ++ text

theorem tagged_write (t : Tag) (text : String) : Tagged (write t text) t.name text :=
  ⟨rfl, by cases t <;> decide⟩

/-- In every session the literal makes a value that nobody could tell from this one, except
    by identity. -/
def Restores (literal : String) (v : Handle) : Prop :=
  ∀ s, ∃ w s', read literal s = (.ok (.ok w), s') ∧ w.Sound ∧ w.payload = v.payload ∧ w.equal v = true

/-! ## Words -/

theorem spells_word (raw : Int64) : Numeral.Spells (Numeral.word raw).toList raw.toInt := by
  rw [Numeral.word, String.toList_ofList]
  exact Numeral.spells_ofInt raw.toInt

theorem value?_word {t : Tag} (ht : t ∈ [Tag.int, .byte, .char]) (raw : Int64) :
    value? t (Numeral.word raw).toList = some (Boxing.scalar t raw) := by
  have hword := Numeral.readInt64?_eq_some_iff.mpr (spells_word raw)
  have hchar := charWord?_eq_some_iff.mpr (Or.inr (spells_word raw))
  simp only [List.mem_cons, List.not_mem_nil, or_false] at ht
  rcases ht with rfl | rfl | rfl
  · rw [value?, hword]; rfl
  · rw [value?, hword]; rfl
  · rw [value?, hchar]; rfl

theorem read_word {t : Tag} (ht : t ∈ [Tag.int, .byte, .char]) (raw : Int64) :
    read (write t (Numeral.word raw)) = .ok <$> Boxing.scalar t raw := by
  have hwritable : writable t = true := by
    simp only [List.mem_cons, List.not_mem_nil, or_false] at ht
    rcases ht with rfl | rfl | rfl <;> rfl
  rw [read_tagged (tagged_write t _), hwritable, value?_word ht]
  rfl

theorem denotes_word {p : Payload} (ht : p.tag ∈ [Tag.int, .byte, .char]) :
    ∃ raw, p.scalar? = some raw ∧ Denotes p.tag (Numeral.word raw) (.value p) := by
  cases p with
  | int n => exact ⟨n, rfl, .int (spells_word n)⟩
  | byte b =>
    refine ⟨_, rfl, .byte ?_⟩
    rw [← toInt_ofNat_byte]
    exact spells_word _
  | char c =>
    -- Written as a code point, also where the character would stand for itself.
    refine ⟨_, rfl, .codePoint ?_⟩
    rw [← toInt_ofNat_char]
    exact spells_word _
  | _ => simp [Payload.tag] at ht

/-! ## Renderings -/

theorem denotes_ownText {v : Handle} (ht : v.payload.tag ∈ [Tag.null, .bool, .int, .string]) :
    Denotes v.payload.tag (Rendering.ownText v) (.value v.payload) := by
  obtain ⟨i, m, t, p⟩ := v
  cases p with
  | null => exact .null _
  | bool b =>
    cases b with
    | true => exact .boolTrue
    | false => exact .boolFalse
  | int n => exact .int (spells_word n)
  | string text => exact .string text
  | _ => simp [Payload.tag] at ht

/-- What comes of rendering is a string, and a string renders as itself. -/
theorem render_rendering {args : List Handle} {s s' : Session} {t : Handle} (h : Rendering.routine args s = (.ok t, s')) :
    ∃ text, t.payload = .string text ∧ (Rendering.routine [t]).Settles (.ok (.string text)) := by
  have hok : (Rendering.routine args s).1 = .ok t := by rw [h]
  obtain ⟨x, rfl, hs, ht, -⟩ := Rendering.meets.of_ok hok
  rw [Rendering.routine_settles hs ht s] at hok
  cases hok
  exact ⟨_, rfl, Rendering.routine_settles ⟨rfl, rfl⟩ (by simp [Rendering.contract, Payload.tag])⟩

/-! ## Round trips -/

/-- Of all that a text denotes only a real need not equal itself. -/
theorem Denotes.equal_self {t : Tag} {text : String} {p : Payload} (h : Denotes t text (.value p)) (ht : t ≠ .real) :
    p.equal p = true := by
  cases h with
  | real => exact absurd rfl ht
  | _ => simp [Payload.equal]

theorem Denotes.restores {v : Handle} {text : String} (hs : v.Sound) (ht : v.tag ≠ .real)
    (h : Denotes v.payload.tag text (.value v.payload)) : Restores (write v.tag text) v := by
  rw [← hs.2] at h
  intro s
  have hread := (Reads.denotes (tagged_write v.tag text) h).read s
  exact ⟨_, _, hread, ⟨rfl, rfl⟩, rfl, Handle.equal_of_payload rfl (h.equal_self ht)⟩

theorem round_trips :
    (∀ t ∈ [Tag.int, .byte, .char], ∀ raw, read (write t (Numeral.word raw)) = .ok <$> Boxing.scalar t raw) ∧
      (∀ v : Handle, v.Sound → v.tag ∈ [Tag.int, .byte, .char] →
        ∃ raw, v.scalar? = some raw ∧ Restores (write v.tag (Numeral.word raw)) v) ∧
      (∀ v : Handle, v.Sound → v.tag ∈ [Tag.null, .bool, .int, .string] →
        ∃ text, (Rendering.routine [v]).Settles (.ok (.string text)) ∧ Restores (write v.tag text) v) ∧
      ∀ args s t s', Rendering.routine args s = (.ok t, s') →
        ∀ s₁, ∃ u s₂, Rendering.routine [t] s₁ = (.ok u, s₂) ∧ u.payload = t.payload ∧ u.equal t = true := by
  refine ⟨fun t ht raw => read_word ht raw, ?_, ?_, ?_⟩
  · intro v hs ht
    have hreal : v.tag ≠ .real := ne_of_mem_of_not_mem ht (by decide)
    rw [hs.2] at ht
    obtain ⟨raw, hraw, h⟩ := denotes_word ht
    exact ⟨raw, hraw, h.restores hs hreal⟩
  · intro v hs ht
    have hreal : v.tag ≠ .real := ne_of_mem_of_not_mem ht (by decide)
    have hplain : [Tag.null, .bool, .int, .string] ⊆ Rendering.contract.accepts := by decide
    have haccepted : v.tag ∈ Rendering.contract.accepts := hplain ht
    rw [hs.2] at ht
    exact ⟨_, Rendering.routine_settles hs haccepted, (denotes_ownText ht).restores hs hreal⟩
  · intro args s t s' h s₁
    obtain ⟨text, htext, hsettles⟩ := render_rendering h
    refine ⟨_, _, hsettles s₁, htext.symm, Handle.equal_of_payload htext.symm ?_⟩
    rw [htext]
    exact beq_self_eq_true text

/-- A character whose numeral is one digit, a text with a colon, a word that is no byte, and
    a rendering that is rendered again. -/
theorem bell_round_trips :
    let bell : Handle := ⟨0, liveMagic, .char, .char '\x07'⟩
    let text : Handle := ⟨1, liveMagic, .string, .string "a:b"⟩
    Restores "char:7" bell ∧ Restores "string:a:b" text ∧ read "byte:256" = .ok <$> Boxing.scalar .byte 256 ∧
      ∃ t s', Rendering.routine [bell] {} = (.ok t, s') ∧ ∃ u s₂, Rendering.routine [t] s' = (.ok u, s₂) ∧ u.equal t = true := by
  intro bell text
  obtain ⟨hwords, hscalars, htexts, hrenderings⟩ := round_trips
  refine ⟨?_, ?_, hwords .byte (by decide) 256, ?_⟩
  · obtain ⟨raw, hraw, h⟩ := hscalars bell ⟨rfl, rfl⟩ (by decide)
    cases hraw
    exact h
  · obtain ⟨own, hown, h⟩ := htexts text ⟨rfl, rfl⟩ (by decide)
    cases hown {}
    exact h
  · obtain ⟨u, s₂, hu, -, heq⟩ := hrenderings [bell] {} _ _ rfl _
    exact ⟨_, _, rfl, u, s₂, hu, heq⟩

end BoxedRuntime.Literal
