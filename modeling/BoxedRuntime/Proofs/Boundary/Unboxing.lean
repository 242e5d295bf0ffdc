/-
  BoxedRuntime.Proofs.Boundary.Unboxing — the word that was boxed is the word unboxed.

  Under a scalar tag a word of the tag's domain makes a value, and the value gives the word
  back; any other word is refused. Only `null` makes one value of all words. The other way
  round a scalar is what its own tag and word make.

  Compiled code boxes a word, keeps the pointer, and asks for the word at once or any number
  of calls later. In between it may have passed the pointer to routines and released some
  of the references to the object. As long as the pointer shows an object at all, it is the
  one with the word.

  Main statements:
  - `Boxing.takes`, `Boxing.scalar_again`, `Tag.separates`: words under a tag.
  - `Request.enter_boxes`: boxing through the boundary is boxing under a tag.
  - `boxed_words_come_back`: words in and out, in the runtime and through its boundary.
-/
import BoxedRuntime.Proofs.Boundary.Refinement
import BoxedRuntime.Proofs.Boundary.Shelter
import BoxedRuntime.Proofs.Routine.Contract
import BoxedRuntime.Value.Equality

namespace BoxedRuntime

/-! ## Words under a tag -/

/-- What comes of boxing a word under a tag. -/
structure Boxing.Takes (t : Tag) (n : Int64) (r : Except Fault Handle) : Prop where
  ok_iff : (∃ y, r = .ok y) ↔ t.isScalar = true ∧ t.Domain n.toInt
  value : ∀ y, r = .ok y → y.Sound ∧ y.tag = t ∧ y.scalar? = some (if t = .null then 0 else n)
  range_iff : faultKind? r = some .rangeViolation ↔ t.isScalar = true ∧ ¬ t.Domain n.toInt
  unsupported_iff : faultKind? r = some .unsupportedType ↔ t.isScalar = false

theorem Boxing.takes (t : Tag) (n : Int64) (s : Session) : Takes t n (Boxing.scalar t n s).1 := by
  rw [Boxing.scalar_settles t n s]
  have hpacks := Boxing.packs t n
  generalize Boxing.packed t n = o at hpacks ⊢
  cases hpacks with
  | value p htag hd hkind hword =>
    refine ⟨by simp [Session.settled, htag, hd], ?_, by simp [Session.settled, faultKind?, hd],
      by simp [Session.settled, faultKind?, htag]⟩
    intro y hy
    cases hy
    exact ⟨⟨rfl, rfl⟩, hkind, hword⟩
  | outside htag hd =>
    exact ⟨by simp [Session.settled, hd], by rintro y ⟨⟩, by simp [Session.settled, faultKind?, Fault.range, htag, hd],
      by simp [Session.settled, faultKind?, Fault.range, htag]⟩
  | unsupported htag =>
    exact ⟨by simp [Session.settled, htag], by rintro y ⟨⟩, by simp [Session.settled, faultKind?, Fault.unsupported, htag],
      by simp [Session.settled, faultKind?, Fault.unsupported, htag]⟩

/-- A scalar is made again of its own tag and word. -/
theorem Boxing.scalar_again {v : Handle} {n : Int64} (hv : v.Sound) (hn : v.scalar? = some n) (s : Session) :
    ∃ y s', Boxing.scalar v.tag n s = (.ok y, s') ∧ y.Sound ∧ y.payload = v.payload ∧ y.equal v = true := by
  rw [hv.2, Boxing.scalar_settles, Boxing.packed_scalar hn]
  exact ⟨_, _, rfl, ⟨rfl, rfl⟩, rfl, Handle.equal_of_payload rfl (Payload.equal_self_of_scalar? hn)⟩

/-- Different words of the domain make values that differ, the one made any time after the
    other. -/
def Tag.Separates (t : Tag) : Prop := ∀ m n : Int64, t.Domain m.toInt → t.Domain n.toInt → m ≠ n →
  ∀ s₁ s₂ s₃ s₄ y z, Boxing.scalar t m s₁ = (.ok y, s₂) → s₂.nextId ≤ s₃.nextId →
    Boxing.scalar t n s₃ = (.ok z, s₄) → y.equal z = false

theorem Boxing.scalar_id {t : Tag} {n : Int64} {s s' : Session} {y : Handle}
    (h : Boxing.scalar t n s = (.ok y, s')) : y.id = s.nextId ∧ s'.nextId = s.nextId + 1 := by
  rw [Boxing.scalar_settles t n s] at h
  cases hp : Boxing.packed t n with
  | error f => rw [hp] at h; cases h
  | ok p => rw [hp] at h; cases h; exact ⟨rfl, rfl⟩

theorem Tag.separates {t : Tag} (ht : t ≠ .null) : t.Separates := by
  intro m n _ _ hmn s₁ s₂ s₃ s₄ y z hy hlater hz
  have hym := ((Boxing.takes t m s₁).value y (by rw [hy])).2.2
  have hzn := ((Boxing.takes t n s₃).value z (by rw [hz])).2.2
  rw [if_neg ht] at hym hzn
  have hids : y.id ≠ z.id := by
    obtain ⟨hyid, hnext⟩ := Boxing.scalar_id hy
    obtain ⟨hzid, -⟩ := Boxing.scalar_id hz
    omega
  have hpayloads : y.payload.equal z.payload ≠ true := by
    intro h
    have hsame : y.payload = z.payload := Payload.eq_of_equal hym h
    refine hmn (Option.some.inj (hym.symm.trans ?_))
    rw [Handle.scalar?, hsame]
    exact hzn
  rw [Handle.equal_def, Handle.sameObject, beq_eq_false_iff_ne.mpr hids, Bool.false_or]
  exact Bool.eq_false_iff.mpr hpayloads

/-- All words are one value under `null`. -/
theorem null_merges_words :
    Tag.null.Domain (0 : Int64).toInt ∧ Tag.null.Domain (1 : Int64).toInt ∧
      (∃ y z s s', Boxing.scalar .null 0 {} = (.ok y, s) ∧ Boxing.scalar .null 1 s = (.ok z, s') ∧ y.equal z = true) ∧
      ¬ ∀ t : Tag, t.isScalar = true → t.Separates := by
  refine ⟨trivial, trivial, ⟨_, _, _, _, rfl, rfl, rfl⟩, fun h => ?_⟩
  exact absurd (h .null rfl 0 1 trivial trivial (by decide) {} _ _ _ _ _ rfl (Nat.le_refl _) rfl) (by decide)

/-! ## Boxing through the boundary -/

theorem Entry.unboxScalar_apply {p : Boundary × Session} {id : Nat} {x : Handle} {n : Int64}
    (hfind : p.1.find? id = some x) (hx : x.Sound) (hn : x.scalar? = some n) :
    Entry.unboxScalar (.object id) p = (.ok n, p) := by
  obtain ⟨b, s⟩ := p
  obtain rfl := (Boundary.of_find? hfind).2
  have hobject : ∀ y, Pointer.object x = .object y → b.find? y.id = some y := by
    rintro y ⟨⟩
    exact hfind
  have hchecked := checked_mirrors hobject "brisk_unbox_scalar" s
  rw [hx.wellFormed.pointer, Pointer.map] at hchecked
  rw [unboxScalar, bind_apply, hchecked]
  simp only [hn]
  rfl

namespace Request

/-- The tag and the word that a call boxes. -/
def boxes? : Request Nat → Option (Tag × Int64)
  | boxNull => some (.null, 0)
  | boxBool b => some (.bool, if b then 1 else 0)
  | boxInt n => some (.int, n)
  | boxByte raw => some (.byte, raw)
  | boxChar raw => some (.char, raw)
  | _ => none

variable {q : Request Nat} {t : Tag} {n : Int64}

theorem enter_boxes (hq : q.boxes? = some (t, n)) (p : Boundary × Session) :
    q.enter p = match Boxing.scalar t n p.2 with
      | (.ok y, s) => (.ok (.handle y.id), p.1.own y, s)
      | (.error f, s) => (.error (.fault f), p.1, s) := by
  have henter : q.enter = .handle <$> (liftM (Boxing.scalar t n) >>= Entry.give) := by
    cases q with
    | boxBool b => cases hq; cases b <;> rfl
    | boxNull | boxInt | boxByte | boxChar => cases hq; rfl
    | _ => cases hq
  obtain ⟨b, s⟩ := p
  rw [henter, map_eq_pure_bind, Entry.bind_apply, Entry.Mirrors.give (Boxing.scalar t n) s]
  rcases Boxing.scalar t n s with ⟨_ | _, _⟩ <;> rfl

/-- The word of `null` is always 0, so no word is lost. -/
theorem boxes_word (hq : q.boxes? = some (t, n)) : t.isScalar = true ∧ (if t = .null then 0 else n) = n := by
  cases q <;> cases hq <;> exact ⟨rfl, rfl⟩

theorem enter_boxes_iff (hq : q.boxes? = some (t, n)) (p : Boundary × Session) :
    (∃ id p', q.enter p = (.ok (.handle id), p')) ↔ t.Domain n.toInt := by
  have htakes := (Boxing.takes t n p.2).ok_iff
  rw [enter_boxes hq p]
  rcases hmake : Boxing.scalar t n p.2 with ⟨f | y, s⟩ <;> rw [hmake] at htakes
  · refine ⟨by rintro ⟨_, _, ⟨⟩⟩, fun hd => ?_⟩
    obtain ⟨_, hy⟩ := htakes.mpr ⟨(boxes_word hq).1, hd⟩
    cases hy
  · exact ⟨fun _ => (htakes.mp ⟨y, rfl⟩).2, fun _ => ⟨_, _, rfl⟩⟩

/-- What was boxed is an object with that word, and the pointer shows it. -/
theorem enter_boxes_ok (hq : q.boxes? = some (t, n)) {p p' : Boundary × Session} {id : Nat}
    (h : q.enter p = (.ok (.handle id), p')) :
    ∃ y, p'.1.find? id = some y ∧ y.Sound ∧ y.scalar? = some n := by
  have hvalue := (Boxing.takes t n p.2).value
  rw [enter_boxes hq p] at h
  rcases hmake : Boxing.scalar t n p.2 with ⟨f | y, s⟩ <;> rw [hmake] at h hvalue <;> cases h
  obtain ⟨hsound, -, hword⟩ := hvalue y rfl
  rw [(boxes_word hq).2] at hword
  exact ⟨y, List.find?_cons_of_pos (beq_self_eq_true y.id), hsound, hword⟩

/-- Boxing a word, and asking for it again. -/
structure Returns (q : Request Nat) (t : Tag) (n : Int64) (p : Boundary × Session) : Prop where
  boxed_iff : (∃ id p', q.enter p = (.ok (.handle id), p')) ↔ t.Domain n.toInt
  unboxed : ∀ id p', q.enter p = (.ok (.handle id), p') → Entry.unboxScalar (.object id) p' = (.ok n, p')
  /-- Also after further calls, whenever there still is an object at the pointer. -/
  later : ∀ own hs, Sheltered own hs p → ∀ id p', q.enter p = (.ok (.handle id), p') → ∀ program,
    ((enterAll p' program).last.1.find? id).isSome = true →
      Entry.unboxScalar (.object id) (enterAll p' program).last = (.ok n, (enterAll p' program).last)
  /-- And there is one at least until the pointer is released. -/
  held : ∀ own hs, Sheltered own hs p → ∀ id p', q.enter p = (.ok (.handle id), p') → ∀ program,
    .release (.object id) ∉ program → ((enterAll p' program).last.1.find? id).isSome = true

theorem returns (hq : q.boxes? = some (t, n)) (p : Boundary × Session) : q.Returns t n p := by
  have sheltered : ∀ {own hs id p'}, Sheltered own hs p → q.enter p = (.ok (.handle id), p') →
      ∃ hs', Sheltered own hs' p' := by
    intro own hs id p' h hp
    obtain ⟨hs', h', -⟩ := q.enter_sheltering p h
    rw [hp] at h'
    exact ⟨hs', h'⟩
  constructor
  · exact enter_boxes_iff hq p
  · intro id p' hp
    obtain ⟨y, hfind, hsound, hword⟩ := enter_boxes_ok hq hp
    exact Entry.unboxScalar_apply hfind hsound hword
  · intro own hs h id p' hp program hshown
    obtain ⟨hs', h'⟩ := sheltered h hp
    obtain ⟨y, hfind, hsound, hword⟩ := enter_boxes_ok hq hp
    obtain ⟨howned, hid⟩ := Boundary.of_find? hfind
    obtain ⟨hs'', h'', hsub, -⟩ := enterAll_sheltered h' program
    obtain ⟨z, hz⟩ := Option.isSome_iff_exists.mp hshown
    obtain rfl := h''.find?_eq (hsub (h'.owned howned)) hid hz
    exact Entry.unboxScalar_apply hz hsound hword
  · intro own hs h id p' hp program hfree
    obtain ⟨hs', h'⟩ := sheltered h hp
    obtain ⟨y, hfind, -⟩ := enter_boxes_ok hq hp
    obtain ⟨howned, rfl⟩ := Boundary.of_find? hfind
    obtain ⟨-, -, -, hkept⟩ := enterAll_sheltered h' program
    exact List.find?_isSome.mpr ⟨y, hkept y howned hfree, beq_self_eq_true y.id⟩

end Request

theorem boxed_words_come_back :
    (∀ t n s, Boxing.Takes t n (Boxing.scalar t n s).1) ∧
      (∀ v : Handle, v.Sound → v.tag.isScalar = true → ∃ n, v.scalar? = some n ∧
        ∀ s, ∃ y s', Boxing.scalar v.tag n s = (.ok y, s') ∧ y.Sound ∧ y.payload = v.payload ∧ y.equal v = true) ∧
      (∀ t : Tag, t ≠ .null → t.Separates) ∧
      ∀ (q : Request Nat) t n, q.boxes? = some (t, n) → ∀ p, q.Returns t n p := by
  refine ⟨Boxing.takes, fun v hv ht => ?_, fun t ht => Tag.separates ht, fun _ _ _ hq p => Request.returns hq p⟩
  rw [← hv.scalar?_isSome] at ht
  obtain ⟨n, hn⟩ := Option.isSome_iff_exists.mp ht
  exact ⟨n, hn, Boxing.scalar_again hv hn⟩

/-- The character's word is asked for after a routine gave out a second pointer to it and
    the first was released. -/
theorem lambda_comes_back :
    let byte : Handle := ⟨0, liveMagic, .byte, .byte 200⟩
    let text (s : String) : ForeignText := some s.toUTF8.toList
    let start : Boundary × Session := (⟨some .echoing, []⟩, {})
    let program : List (Request Nat) := [.call (text "echo") (text "[^a,v,a]") (.object 0), .release (.object 0)]
    (∃ y s', Boxing.scalar .byte 200 {} = (.ok y, s') ∧ y.equal byte = true) ∧ Tag.byte.Separates ∧
      (Request.boxChar 955).Returns .char 955 start ∧
      ∃ p, Request.enter (.boxChar 955) start = (.ok (.handle 0), p) ∧
        Entry.unboxScalar (.object 0) (Request.enterAll p program).last = (.ok 955, (Request.enterAll p program).last) := by
  intro byte text start program
  obtain ⟨-, hagain, hseparates, hreturns⟩ := boxed_words_come_back
  have hstart : Sheltered [] [] start := by
    refine ⟨.start {}, List.nil_subset [], List.nil_subset [], fun r hr => ?_⟩
    cases hr
    exact Runtime.confined_echoing
  have hchar := hreturns (.boxChar 955) .char 955 rfl start
  refine ⟨?_, hseparates .byte (by decide), hchar, _, rfl, hchar.later [] [] hstart 0 _ rfl program ?_⟩
  · obtain ⟨n, hn, hmake⟩ := hagain byte ⟨rfl, rfl⟩ rfl
    cases hn
    obtain ⟨y, s', hy, -, -, hequal⟩ := hmake {}
    exact ⟨y, s', hy, hequal⟩
  · decide +kernel

end BoxedRuntime
