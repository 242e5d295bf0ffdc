/-
  BoxedRuntime.Proofs.Boundary.Texts — names and signatures from compiled code.

  Compiled code passes a text as the address of its bytes. They end at the first zero byte;
  what memory holds behind it is no part of the text. Whatever bytes these are, they spell
  one text without a zero character, or they are the encoding of none. In the first case the
  call is a call of the runtime with that text. In the second it stops there, the name being
  looked at before the signature and both of them before the argument.

  Main statements:
  - `ForeignText.spells_or_unreadable`: there is no third case.
  - `Entry.takes_texts`: what a call makes of each.
  - `texts_cross`: both, and which bytes spell nothing.
-/
import BoxedRuntime.Proofs.Boundary.Installation
import BoxedRuntime.Proofs.Text.Encoding

namespace BoxedRuntime

open ByteOrder Encoding

/-! ## Texts in memory -/

namespace ForeignText

/-- The bytes, a zero byte, and what memory holds behind it. -/
def terminated (body junk : List UInt8) : ForeignText := some (body ++ 0 :: junk)

/-- A text without a zero character, in memory. -/
inductive Spells : ForeignText → String → Prop
  | intro {n : String} (junk : List UInt8) : (∀ c ∈ n.toList, c.val.toNat ≠ 0) → Spells (terminated (utf8 n) junk) n

/-- No text, in memory. -/
inductive Unreadable : ForeignText → Prop
  | null : Unreadable none
  | invalid {body : List UInt8} (junk : List UInt8) : 0 ∉ body → ¬ Encoded body → Unreadable (terminated body junk)

variable {text : ForeignText}

theorem spelled?_terminated {body : List UInt8} (h : 0 ∉ body) (junk : List UInt8) :
    (terminated body junk).spelled? = String.fromUTF8? body.toByteArray := by
  have hbody : (body ++ 0 :: junk).takeWhile (· ≠ 0) = body := by
    rw [List.takeWhile_append_of_pos, List.takeWhile_cons_of_neg (by decide), List.append_nil]
    intro b hb
    exact decide_eq_true fun hzero => h (hzero ▸ hb)
  show String.fromUTF8? _ = _
  rw [hbody]

theorem Spells.spelled {n : String} (h : Spells text n) : text.spelled? = some n := by
  obtain ⟨junk, hn⟩ := h
  have hzero : 0 ∉ utf8 n := by
    rw [zero_mem_utf8_iff]
    exact fun ⟨c, hc, hval⟩ => hn c hc hval
  rw [spelled?_terminated hzero]
  exact fromUTF8?_eq_some_iff.mpr rfl

theorem Unreadable.spelled (h : Unreadable text) : text.spelled? = none := by
  cases h with
  | null => rfl
  | invalid junk hzero hbody =>
    rw [spelled?_terminated hzero]
    exact fromUTF8?_eq_none_iff.mpr hbody

/-- The bytes up to the first zero byte are those of a text, or of none. -/
theorem spells_or_unreadable (h : ∀ bytes, text = some bytes → 0 ∈ bytes) :
    (∃ n, Spells text n) ∨ Unreadable text := by
  cases text with
  | none => exact .inr .null
  | some bytes =>
    obtain ⟨body, junk, rfl, hzero⟩ := List.eq_append_cons_of_mem (h bytes rfl)
    by_cases hbody : Encoded body
    · obtain ⟨n, rfl⟩ := encoded_iff_utf8.mp hbody
      refine .inl ⟨n, .intro junk fun c hc hval => hzero ?_⟩
      exact zero_mem_utf8_iff.mpr ⟨c, hc, hval⟩
    · exact .inr (.invalid junk hzero hbody)

end ForeignText

/-! ## Calls -/

namespace Entry

/-- The runtime's answer to a call, as compiled code gets it: a pointer with a reference to
    the value, or the end of the process. -/
def delivered (b : Boundary) (name : String) :
    Except Fault (Except UnknownRoutine Handle) × Session → Except Stop Nat × Boundary × Session
  | (.ok (.ok y), s) => (.ok y.id, b.own y, s)
  | (.ok (.error e), s) => (.error (.fault (.internal name e.message)), b, s.raised (.internal name e.message))
  | (.error f, s) => (.error (.fault f), b, s)

/-- What a call makes of its two texts. -/
structure TakesTexts (b : Boundary) (t : Session) : Prop where
  spelled : ∀ name signature n g id x runtime, name.Spells n → signature.Spells g → b.find? id = some x → x.Sound →
    b.installed = some runtime →
      call name signature (.object id) (b, t) = delivered b n (runtime.call n ⟨g⟩ [x] t)
  /-- Whatever the signature and the argument are. -/
  badName : ∀ name signature arg, name.Unreadable → call name signature arg (b, t) =
    let f := Fault.internal "brisk_call1" name.complaint
    (.error (.fault f), b, t.raised f)
  /-- Whatever the argument is. -/
  badSignature : ∀ name n signature arg, name.Spells n → signature.Unreadable → call name signature arg (b, t) =
    let f := Fault.internal "brisk_call1" signature.complaint
    (.error (.fault f), b, t.raised f)

theorem takes_texts (b : Boundary) (t : Session) : TakesTexts b t where
  spelled name signature n g id x runtime hname hsignature hx hsound hinstalled := by
    have hp : (Pointer.object id).rename b.find? = .ok (.object x) := by
      rw [Pointer.rename, hx]
    rw [(call_answers hp t name signature).present n g x t runtime hname.spelled hsignature.spelled
      (hsound.wellFormed.pointer n t) hinstalled]
    rcases runtime.call n ⟨g⟩ [x] t with ⟨_ | _ | _, _⟩ <;> rfl
  badName name signature arg hname := call_of_unspelled_name hname.spelled signature arg b t
  badSignature name n signature arg hname hsignature :=
    call_of_unspelled_signature hname.spelled hsignature.spelled arg b t

end Entry

/-- Every two texts with a zero byte in memory or at no address, in every state of the
    boundary; the bytes that spell nothing are those that go wrong behind some characters. -/
theorem texts_cross :
    (∀ b t, Entry.TakesTexts b t) ∧
      (∀ text : ForeignText, (∀ bytes, text = some bytes → 0 ∈ bytes) → (∃ n, text.Spells n) ∨ text.Unreadable) ∧
      ∀ body, ¬ Encoded body ↔ ∃ cs rest, body = encode cs ++ rest ∧ IllFormed rest :=
  ⟨Entry.takes_texts, fun _ => ForeignText.spells_or_unreadable, fun _ => not_encoded_iff⟩

/-- A call with bytes behind both texts that are none, and a call under a zero character in
    two bytes, with an argument that was never given out. -/
theorem overlong_zero_unreadable :
    let x : Handle := ⟨0, liveMagic, .int, .int 7⟩
    let b : Boundary := ⟨some .echoing, [x]⟩
    Entry.call (.terminated (utf8 "echo") [0xFF]) (.terminated (utf8 "[^a,v,a]") [0x80, 0]) (.object 0) (b, {}) =
        (.ok 0, b.own x, {}) ∧
      Entry.call (.terminated [0xC0, 0x80] []) none (.object 5) (b, {}) =
        let f := Fault.internal "brisk_call1" "string is not valid UTF-8"
        (.error (.fault f), b, Session.raised {} f) := by
  intro x b
  obtain ⟨htakes, -, hunreadable⟩ := texts_cross
  constructor
  · have hname : ForeignText.Spells (.terminated (utf8 "echo") [0xFF]) "echo" := .intro _ (by simp)
    have hsignature : ForeignText.Spells (.terminated (utf8 "[^a,v,a]") [0x80, 0]) "[^a,v,a]" :=
      .intro _ (by simp)
    rw [(htakes b {}).spelled _ _ _ _ 0 x .echoing hname hsignature rfl ⟨rfl, rfl⟩ rfl]
    rfl
  · have hform : (⟨32, 192, 1⟩ : Form) ∈ forms := by decide
    have hoverlong : IllFormed [0xC0, 0x80] := .overlong (n := 0) [] hform (by decide) (by decide)
    have hname : ForeignText.Unreadable (.terminated [0xC0, 0x80] []) :=
      .invalid [] (by decide) ((hunreadable _).mpr ⟨[], _, rfl, hoverlong⟩)
    exact (htakes b {}).badName _ none (.object 5) hname

end BoxedRuntime
