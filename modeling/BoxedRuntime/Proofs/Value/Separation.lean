/-
  BoxedRuntime.Proofs.Value.Separation — display separates values.

  The printed form is read from the front. Its first character, or for a numeral what
  stands behind the digits, tells the kind; the kind tells where the value ends, given
  that what follows is the end of the text, a comma or a closing bracket. Record keys are
  printed as they are, so a key must contain neither the colon that ends it nor the brace
  that ends the record; any other character may stand in it. Reals are left out: they are
  not compared by what they print.

  Main statements:
  - `leadTag?_text`: the kind of a value is read off its printed form.
  - `joined_inj`: a closed sequence of pieces determines each piece and where it ends.
  - `Handle.text_append_inj`: equal printed forms are those of equal values.
  - `Coherent.text_eq`: equal values of a run have equal printed forms.
  - `Run.display_eq_iff`: to print alike is to be equal.
-/
import BoxedRuntime.Proofs.Value.Equivalence
import BoxedRuntime.Proofs.Text.Decoding
import BoxedRuntime.Value.Display

namespace BoxedRuntime

/-! ## What is printed unambiguously -/

/-- The keys of a record. -/
def Payload.keys : Payload → List String
  | .record fs => fs.map (·.1)
  | _ => []

/-- Not a real, and no key with a colon or a closing brace. -/
def Payload.Separable (p : Payload) : Prop :=
  p.tag ≠ .real ∧ ∀ k ∈ p.keys, ':' ∉ k.toList ∧ '\x7d' ∉ k.toList

/-- Nothing follows, or what may follow a value within a list or record. -/
def Ends (r : List Char) : Prop := ∀ c ∈ r.head?, c = ',' ∨ c = ']' ∨ c = '\x7d'

theorem Ends.nil : Ends [] := by simp [Ends]

theorem Ends.cons {c : Char} {r : List Char} (h : c = ',' ∨ c = ']' ∨ c = '\x7d') : Ends (c :: r) := by
  simpa [Ends] using h

theorem Ends.noDigit {r : List Char} (h : Ends r) : Numeral.NoDigit r := by
  intro c hc
  rcases h c hc with rfl | rfl | rfl <;> rfl

/-! ## The kind of a value -/

/-- The kind of the value at the front of a text. Bytes and integers both begin with
    digits; a byte has a `b` behind them. -/
def leadTag? (cs : List Char) : Option Tag :=
  if cs.head?.any Char.isDigit then
    if (cs.dropWhile Char.isDigit).head? = some 'b' then some .byte else some .int
  else
    match cs.head? with
    | some 'n' => some .null
    | some 't' | some 'f' => some .bool
    | some '-' => some .int
    | some '\'' => some .char
    | some '"' => some .string
    | some '[' => some .list
    | some '\x7b' => some .record
    | _ => none

theorem leadTag?_digits {ds r : List Char} (hds : ∀ c ∈ ds, c.isDigit = true) (hne : ds ≠ [])
    (hr : Numeral.NoDigit r) : leadTag? (ds ++ r) = some (if r.head? = some 'b' then .byte else .int) := by
  have hhead : (ds ++ r).head?.any Char.isDigit = true := by
    cases ds with
    | nil => exact absurd rfl hne
    | cons d ds => exact hds d List.mem_cons_self
  rw [leadTag?, if_pos hhead, dropWhile_append_stop hds hr]
  split <;> rfl

theorem leadTag?_closing {c : Char} {r : List Char} (h : c = ',' ∨ c = ']' ∨ c = '\x7d') :
    leadTag? (c :: r) = none := by
  rcases h with rfl | rfl | rfl <;> rfl

theorem leadTag?_int {n : Int} {r : List Char} (hr : Ends r) : leadTag? (Numeral.ofInt n ++ r) = some .int := by
  cases n with
  | negSucc n => rfl
  | ofNat n =>
    have hne : Numeral.decimal n ≠ [] := Nat.toDigits_ne_nil
    rw [Numeral.ofInt, leadTag?_digits (fun _ => Numeral.isDigit_decimal) hne hr.noDigit, if_neg]
    intro hb
    rcases hr 'b' hb with h | h | h <;> exact absurd h (by decide)

theorem leadTag?_text {p : Payload} {r : List Char} (hp : p.tag ≠ .real) (hr : Ends r) :
    leadTag? (p.text ++ r) = some p.tag := by
  cases p with
  | real x => exact absurd rfl hp
  | int n => exact leadTag?_int hr
  | byte b =>
    have hne : Numeral.byteDigits b ≠ [] := List.append_ne_nil_of_right_ne_nil _ Nat.toDigits_ne_nil
    have htext : (Payload.byte b).text ++ r = Numeral.byteDigits b ++ 'b' :: r := by
      simp [Payload.text, Numeral.byteDigits]
    rw [htext, leadTag?_digits (fun _ => Numeral.isDigit_byteDigits) hne (by simp [Numeral.NoDigit])]
    rfl
  | bool b => cases b <;> rfl
  | _ => rfl

/-! ## Sequences of pieces -/

/-- The pieces, with a comma between any two. -/
def joined {α : Type} (piece : α → List Char) : List α → List Char
  | [] => []
  | x :: xs => piece x ++ xs.flatMap fun y => ',' :: piece y

/-- Key, colon and value. -/
def fieldText (f : String × Handle) : List Char := f.1.toList ++ ':' :: f.2.text

theorem itemsText_eq (xs : List Handle) : itemsText xs = joined Handle.text xs := by
  induction xs with
  | nil => rfl
  | cons x xs ih =>
    cases xs with
    | nil => simp [itemsText, joined]
    | cons y xs =>
      rw [itemsText, ih]
      rfl

theorem fieldsText_eq (fs : List (String × Handle)) : fieldsText fs = joined fieldText fs := by
  induction fs with
  | nil => rfl
  | cons f fs ih =>
    obtain ⟨k, x⟩ := f
    cases fs with
    | nil => simp [fieldsText, joined, fieldText]
    | cons g fs =>
      rw [fieldsText, ih]
      simp [joined, fieldText]

section Joined

variable {α : Type} {R : α → α → Prop} {piece : α → List Char} {close : Char} {xs ys : List α} {r r' : List Char}

theorem ends_followed (hclose : close = ']' ∨ close = '\x7d') :
    Ends ((xs.flatMap fun y => ',' :: piece y) ++ close :: r) := by
  cases xs with
  | nil => exact .cons (Or.inr hclose)
  | cons x xs => exact .cons (Or.inl rfl)

theorem followed_inj (hclose : close = ']' ∨ close = '\x7d')
    (hR : ∀ x ∈ xs, ∀ y ∈ ys, ∀ s s', Ends s → Ends s' → piece x ++ s = piece y ++ s' → R x y ∧ s = s')
    (h : (xs.flatMap fun y => ',' :: piece y) ++ close :: r = (ys.flatMap fun y => ',' :: piece y) ++ close :: r') :
    List.Forall₂ R xs ys ∧ r = r' := by
  have hcomma : close ≠ ',' := by rcases hclose with rfl | rfl <;> decide
  induction xs generalizing ys with
  | nil =>
    cases ys with
    | nil => exact ⟨.nil, (List.cons.inj h).2⟩
    | cons y ys => exact absurd (List.cons.inj h).1 hcomma
  | cons x xs ih =>
    cases ys with
    | nil => exact absurd (List.cons.inj h).1.symm hcomma
    | cons y ys =>
      rw [List.flatMap_cons, List.flatMap_cons, List.append_assoc, List.append_assoc] at h
      obtain ⟨hxy, htail⟩ := hR x List.mem_cons_self y List.mem_cons_self _ _ (ends_followed hclose)
        (ends_followed hclose) (List.cons.inj h).2
      have hR' := fun x hx y hy => hR x (List.mem_cons_of_mem _ hx) y (List.mem_cons_of_mem _ hy)
      obtain ⟨hall, hr⟩ := ih hR' htail
      exact ⟨.cons hxy hall, hr⟩

/-- If no piece begins with the closing bracket and each one tells where it ends, a closed
    sequence is read back piece by piece. -/
theorem joined_inj (hclose : close = ']' ∨ close = '\x7d')
    (hopen : ∀ x, x ∈ xs ∨ x ∈ ys → ∀ s t, Ends s → piece x ++ s ≠ close :: t)
    (hR : ∀ x ∈ xs, ∀ y ∈ ys, ∀ s s', Ends s → Ends s' → piece x ++ s = piece y ++ s' → R x y ∧ s = s')
    (h : joined piece xs ++ close :: r = joined piece ys ++ close :: r') : List.Forall₂ R xs ys ∧ r = r' := by
  cases xs with
  | nil =>
    cases ys with
    | nil => exact ⟨.nil, (List.cons.inj h).2⟩
    | cons y ys =>
      rw [joined, joined, List.append_assoc] at h
      exact absurd h.symm (hopen y (Or.inr List.mem_cons_self) _ _ (ends_followed hclose))
  | cons x xs =>
    rw [joined, List.append_assoc] at h
    cases ys with
    | nil => exact absurd h (hopen x (Or.inl List.mem_cons_self) _ _ (ends_followed hclose))
    | cons y ys =>
      rw [joined, List.append_assoc] at h
      obtain ⟨hxy, htail⟩ := hR x List.mem_cons_self y List.mem_cons_self _ _ (ends_followed hclose)
        (ends_followed hclose) h
      have hR' := fun x hx y hy => hR x (List.mem_cons_of_mem _ hx) y (List.mem_cons_of_mem _ hy)
      obtain ⟨hall, hr⟩ := followed_inj hclose hR' htail
      exact ⟨.cons hxy hall, hr⟩

end Joined

/-! ## Equal texts, equal values -/

/-- What the two handles print tells them apart, also at the front of longer texts. -/
def Separated (x y : Handle) : Prop :=
  ∀ r r', Ends r → Ends r' → x.text ++ r = y.text ++ r' → x.equal y = true ∧ r = r'

theorem Handle.text_eq (x : Handle) : x.text = x.payload.text := by
  cases x
  rw [Handle.text]

theorem fieldText_inj {f g : String × Handle} {r r' : List Char} (hf : ':' ∉ f.1.toList) (hg : ':' ∉ g.1.toList)
    (hv : Separated f.2 g.2) (hr : Ends r) (hr' : Ends r') (h : fieldText f ++ r = fieldText g ++ r') :
    fieldEqual f g ∧ r = r' := by
  have noColon : ∀ {k : String}, ':' ∉ k.toList → ∀ a ∈ k.toList, decide (a ≠ ':') = true := by
    intro k hk a ha
    exact decide_eq_true fun e => hk (e ▸ ha)
  rw [fieldText, fieldText, List.append_assoc, List.append_assoc] at h
  obtain ⟨hk, hrest⟩ := span_unique (noColon hf) (noColon hg) (by simp) (by simp) h
  obtain ⟨hx, he⟩ := hv r r' hr hr' (List.cons.inj hrest).2
  exact ⟨⟨String.toList_inj.mp hk, hx⟩, he⟩

theorem fieldText_open {f : String × Handle} (hf : '\x7d' ∉ f.1.toList) (s t : List Char) :
    fieldText f ++ s ≠ '\x7d' :: t := by
  intro h
  rw [fieldText, List.append_assoc] at h
  cases hk : f.1.toList with
  | nil =>
    rw [hk] at h
    exact absurd (List.cons.inj h).1 (by decide)
  | cons c k =>
    rw [hk] at h
    exact hf (by rw [hk, (List.cons.inj h).1]; exact List.mem_cons_self)

/-- The items of a closed list, given that each is told from each. -/
theorem itemsText_inj {xs ys : List Handle} {r r' : List Char} (hxs : ∀ x ∈ xs, x.payload.Separable)
    (hys : ∀ y ∈ ys, y.payload.Separable) (hc : ∀ x ∈ xs, ∀ y ∈ ys, Separated x y)
    (h : itemsText xs ++ ']' :: r = itemsText ys ++ ']' :: r') :
    List.Forall₂ (fun x y => x.equal y = true) xs ys ∧ r = r' := by
  rw [itemsText_eq, itemsText_eq] at h
  refine joined_inj (Or.inl rfl) ?_ hc h
  intro x hx s t hs he
  have hx' : x.payload.Separable := hx.elim (hxs x) (hys x)
  have := leadTag?_text hx'.1 hs
  rw [← Handle.text_eq, he, leadTag?_closing (Or.inr (Or.inl rfl))] at this
  cases this

/-- The fields of a closed record, given that each value is told from each. -/
theorem fieldsText_inj {fs gs : List (String × Handle)} {r r' : List Char}
    (hfs : ∀ f ∈ fs, ':' ∉ f.1.toList ∧ '\x7d' ∉ f.1.toList) (hgs : ∀ g ∈ gs, ':' ∉ g.1.toList ∧ '\x7d' ∉ g.1.toList)
    (hc : ∀ f ∈ fs, ∀ g ∈ gs, Separated f.2 g.2)
    (h : fieldsText fs ++ '\x7d' :: r = fieldsText gs ++ '\x7d' :: r') : List.Forall₂ fieldEqual fs gs ∧ r = r' := by
  rw [fieldsText_eq, fieldsText_eq] at h
  refine joined_inj (Or.inr rfl) ?_ ?_ h
  · intro f hf s t _
    exact fieldText_open (hf.elim (fun h => (hfs f h).2) (fun h => (hgs f h).2)) s t
  · intro f hf g hg s s' hs hs'
    exact fieldText_inj (hfs f hf).1 (hgs g hg).1 (hc f hf g hg) hs hs'

theorem Payload.text_append_inj_of {p q : Payload} {r r' : List Char} (hp : p.Separable) (hq : q.Separable)
    (hpc : ∀ x ∈ p.children, x.payload.Separable) (hqc : ∀ y ∈ q.children, y.payload.Separable)
    (hc : ∀ x ∈ p.children, ∀ y ∈ q.children, Separated x y) (hr : Ends r) (hr' : Ends r')
    (h : p.text ++ r = q.text ++ r') : p.equal q = true ∧ r = r' := by
  have htag : p.tag = q.tag := by
    have := (leadTag?_text hp.1 hr).symm.trans (h ▸ leadTag?_text hq.1 hr')
    exact Option.some.inj this
  cases p with
  | null =>
    cases q <;> cases htag
    exact ⟨rfl, List.append_cancel_left h⟩
  | bool a =>
    cases q <;> cases htag
    rename_i b
    cases a <;> cases b <;> first
      | exact ⟨rfl, List.append_cancel_left h⟩
      | exact absurd (List.cons.inj h).1 (by decide)
  | byte a =>
    cases q <;> cases htag
    rename_i b
    have h' : Numeral.byteDigits a ++ 'b' :: r = Numeral.byteDigits b ++ 'b' :: r' := by
      simpa [Payload.text, Numeral.byteDigits] using h
    obtain ⟨hd, ht⟩ := span_unique (fun _ => Numeral.isDigit_byteDigits) (fun _ => Numeral.isDigit_byteDigits)
      (by simp) (by simp) h'
    exact ⟨by simp [Payload.equal, Numeral.byteDigits_inj hd], (List.cons.inj ht).2⟩
  | char a =>
    cases q <;> cases htag
    simp only [Payload.text, List.cons_append, List.append_assoc] at h
    obtain ⟨hd, ht⟩ := Escape.char_append_inj (List.cons.inj h).2
    exact ⟨by simp [Payload.equal, hd], (List.cons.inj ht).2⟩
  | int a =>
    cases q <;> cases htag
    obtain ⟨hd, ht⟩ := Numeral.ofInt_append_inj hr.noDigit hr'.noDigit h
    exact ⟨by simp [Payload.equal, Int64.toInt_inj.mp hd], ht⟩
  | real x => exact absurd rfl hp.1
  | string a =>
    cases q <;> cases htag
    simp only [Payload.text, List.cons_append, List.append_assoc] at h
    obtain ⟨hd, ht⟩ := Escape.text_append_inj (Or.inr rfl) (List.cons.inj h).2
    exact ⟨by simp [Payload.equal, String.toList_inj.mp hd], ht⟩
  | list xs =>
    cases q <;> cases htag
    simp only [Payload.text, List.cons_append, List.append_assoc] at h
    obtain ⟨hall, ht⟩ := itemsText_inj hpc hqc hc (List.cons.inj h).2
    exact ⟨Payload.equal_list.mpr hall, ht⟩
  | record fs =>
    cases q <;> cases htag
    simp only [Payload.text, List.cons_append, List.append_assoc] at h
    have key : ∀ {fs : List (String × Handle)}, (Payload.record fs).Separable →
        ∀ f ∈ fs, ':' ∉ f.1.toList ∧ '\x7d' ∉ f.1.toList := fun hs f hf => hs.2 f.1 (List.mem_map_of_mem hf)
    obtain ⟨hall, ht⟩ := fieldsText_inj (key hp) (key hq)
      (fun f hf g hg => hc f.2 (List.mem_map_of_mem hf) g.2 (List.mem_map_of_mem hg)) (List.cons.inj h).2
    exact ⟨Payload.equal_record.mpr hall, ht⟩

/-- Unique reading, by induction on what the handle holds, with any text behind the value. -/
theorem Handle.text_append_inj (x : Handle) : x.Everywhere (·.payload.Separable) →
    ∀ y : Handle, y.Everywhere (·.payload.Separable) → Separated x y := by
  induction x using Handle.induct with
  | step x ih =>
    intro hx y hy r r' hr hr' h
    obtain ⟨hxp, hxc⟩ := Handle.everywhere_iff.mp hx
    obtain ⟨hyp, hyc⟩ := Handle.everywhere_iff.mp hy
    rw [x.text_eq, y.text_eq] at h
    have hc : ∀ u ∈ x.payload.children, ∀ v ∈ y.payload.children, Separated u v :=
      fun u hu v hv => ih u hu (hxc u hu) v (hyc v hv)
    have here : ∀ {z : Handle}, z.Everywhere (·.payload.Separable) → z.payload.Separable :=
      fun hz => (Handle.everywhere_iff.mp hz).1
    obtain ⟨he, ht⟩ := Payload.text_append_inj_of hxp hyp (fun u hu => here (hxc u hu)) (fun v hv => here (hyc v hv))
      hc hr hr' h
    exact ⟨Handle.equal_iff.mpr (Or.inr he), ht⟩

/-! ## Equal values, equal texts -/

theorem joined_congr {α : Type} {piece : α → List Char} {xs ys : List α}
    (h : List.Forall₂ (fun x y => piece x = piece y) xs ys) : joined piece xs = joined piece ys := by
  have hrest : ∀ {us vs : List α}, List.Forall₂ (fun x y => piece x = piece y) us vs →
      (us.flatMap fun y => ',' :: piece y) = vs.flatMap fun y => ',' :: piece y := by
    intro us vs huv
    induction huv with
    | nil => rfl
    | cons hd _ ih => rw [List.flatMap_cons, List.flatMap_cons, hd, ih]
  cases h with
  | nil => rfl
  | cons hd htl => rw [joined, joined, hd, hrest htl]

theorem Payload.text_eq_of {p q : Payload} (hp : p.tag ≠ .real)
    (hc : ∀ x ∈ p.children, ∀ y ∈ q.children, x.equal y = true → x.text = y.text) (h : p.equal q = true) :
    p.text = q.text := by
  rcases Payload.equal_cases h with rfl | ⟨x, y, rfl, rfl, _⟩ | ⟨xs, ys, rfl, rfl, hxy⟩ | ⟨xs, ys, rfl, rfl, hxy⟩
  · rfl
  · exact absurd rfl hp
  · have hitems : joined Handle.text xs = joined Handle.text ys := joined_congr (forall₂_imp_on hc hxy)
    rw [Payload.text, Payload.text, itemsText_eq, itemsText_eq, hitems]
  · have hfields : List.Forall₂ (fun f g => fieldText f = fieldText g) xs ys := by
      refine forall₂_imp_on ?_ hxy
      intro f hf g hg ⟨hk, hv⟩
      rw [fieldText, fieldText, hk, hc f.2 (List.mem_map_of_mem hf) g.2 (List.mem_map_of_mem hg) hv]
    rw [Payload.text, Payload.text, fieldsText_eq, fieldsText_eq, joined_congr hfields]

theorem Coherent.text_eq {hs : List Handle} (h : Coherent hs) (x : Handle) :
    x ∈ hs → x.Everywhere (·.payload.Separable) → ∀ y ∈ hs, x.equal y = true → x.text = y.text := by
  induction x using Handle.induct with
  | step x ih =>
    intro hx hsep y hy hxy
    obtain ⟨hxp, hxc⟩ := Handle.everywhere_iff.mp hsep
    rcases Handle.equal_iff.mp hxy with hid | hp
    · rw [h.unique x hx y hy hid]
    · rw [x.text_eq, y.text_eq]
      refine Payload.text_eq_of hxp.1 ?_ hp
      intro u hu v hv
      exact ih u hu (h.children x hx u hu) (hxc u hu) v (h.children y hy v hv)

/-! ## Display -/

/-- Two handles of a run print alike exactly if they are equal, whatever their headers say,
    as long as there is no real in them and no key with a colon or a closing brace. -/
theorem Run.display_eq_iff {s : Session} {hs : List Handle} (h : Run s hs) {x y : Handle} (hx : x ∈ hs) (hy : y ∈ hs)
    (hxs : x.Everywhere (·.payload.Separable)) (hys : y.Everywhere (·.payload.Separable)) :
    x.display = y.display ↔ x.equal y = true := by
  constructor
  · intro he
    have htext : x.text ++ [] = y.text ++ [] := by
      rw [List.append_nil, List.append_nil]
      exact String.ofList_injective he
    exact (Handle.text_append_inj x hxs y hys [] [] .nil .nil htext).1
  · intro he
    rw [Handle.display, Handle.display, h.coherent.text_eq x hx hxs y hy he]

/-- A list of one string that spells out a comma between quotes is not printed like a list
    of two empty strings; the key and the forged header change nothing about it. -/
theorem spelled_separator_separated :
    let comma : Handle := ⟨0, liveMagic, .string, .string "\",\""⟩
    let empty : Handle := ⟨1, liveMagic, .string, .string ""⟩
    let one : Handle := ⟨2, liveMagic, .list, .list [comma]⟩
    let two : Handle := ⟨3, liveMagic, .list, .list [empty, empty]⟩
    let x : Handle := ⟨4, liveMagic, .record, .record [("k,]", one)]⟩
    let y : Handle := ⟨5, 0, .int, .record [("k,]", two)]⟩
    Run { nextId := 6 } [y, x, two, one, empty, comma] ∧ x.Everywhere (·.payload.Separable) ∧
      y.Everywhere (·.payload.Separable) ∧ x.display ≠ y.display := by
  intro comma empty one two x y
  have h₁ : Run { nextId := 1 } [comma] := .allocate (.start {}) (by simp [Payload.children]) rfl
  have h₂ : Run { nextId := 2 } [empty, comma] := .allocate h₁ (by simp [Payload.children]) rfl
  have h₃ : Run { nextId := 3 } [one, empty, comma] := .allocate h₂ (by simp [Payload.children]) rfl
  have h₄ : Run { nextId := 4 } [two, one, empty, comma] := .allocate h₃ (by simp [Payload.children]) rfl
  have h₅ : Run { nextId := 5 } [x, two, one, empty, comma] := .allocate h₄ (by simp [Payload.children]) rfl
  have h₆ : Run { nextId := 6 } [y, x, two, one, empty, comma] := .allocate h₅ (by simp [Payload.children]) rfl
  have leaf : ∀ i t, (⟨i, liveMagic, .string, .string t⟩ : Handle).Everywhere (·.payload.Separable) := fun i t =>
    Handle.everywhere_iff.mpr ⟨⟨by simp [Payload.tag], by simp [Payload.keys]⟩, by simp [Payload.children]⟩
  have hone : one.Everywhere (·.payload.Separable) :=
    Handle.everywhere_iff.mpr
      ⟨⟨by decide, by simp [one, Payload.keys]⟩, by simpa [one, Payload.children] using leaf 0 _⟩
  have htwo : two.Everywhere (·.payload.Separable) :=
    Handle.everywhere_iff.mpr
      ⟨⟨by decide, by simp [two, Payload.keys]⟩, by simpa [two, Payload.children] using leaf 1 _⟩
  have hx : x.Everywhere (·.payload.Separable) :=
    Handle.everywhere_iff.mpr ⟨⟨by decide, by simp [x, Payload.keys]⟩, by simpa [x, Payload.children] using hone⟩
  have hy : y.Everywhere (·.payload.Separable) :=
    Handle.everywhere_iff.mpr ⟨⟨by decide, by simp [y, Payload.keys]⟩, by simpa [y, Payload.children] using htwo⟩
  have hne : x.equal y = false := rfl
  refine ⟨h₆, hx, hy, fun he => ?_⟩
  have := (h₆.display_eq_iff (by simp) (by simp) hx hy).mp he
  rw [hne] at this
  cases this

end BoxedRuntime
