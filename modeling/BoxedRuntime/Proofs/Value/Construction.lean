/-
  BoxedRuntime.Proofs.Value.Construction — values made by the runtime.

  There is a fixed stock of ways to obtain a value: boxing, the word under a scalar tag, a
  literal, a conversion, a shipped routine. Each of them makes one object, whose header is
  the one its payload calls for and which holds only what it was applied to, or it makes
  none. So whatever a program of such steps obtains is well formed all the way down, and
  no guard on a header has anything to complain of.

  Main statements:
  - `Making.run_cases`: one step makes one object, or no object.
  - `Made.well_formed`: all that any number of steps obtains, and all that is reached from
    it, has the header its payload calls for, passes the guards, and has a word exactly if
    its tag says so.
-/
import BoxedRuntime.Literal
import BoxedRuntime.Proofs.Routine.Outcome
import BoxedRuntime.Proofs.Value.Identity
import BoxedRuntime.Rendering

namespace BoxedRuntime

/-! ## Operations that make leaves -/

/-- In every session the operation comes to the same: an object that holds no other, or a
    fault. -/
def Op.MakesLeaf (x : Op Handle) : Prop := ∃ o, x.Settles o ∧ ∀ p, o = .ok p → p.children = []

theorem Op.makesLeaf_box {p : Payload} (h : p.children = []) : (Op.box p).MakesLeaf :=
  ⟨.ok p, Op.settles_box p, by rintro q ⟨⟩; exact h⟩

theorem Op.makesLeaf_raise (f : Fault) : (Op.raise f).MakesLeaf := ⟨.error f, Op.settles_raise f, nofun⟩

theorem Boxing.packed_children {tag : Tag} {raw : Int64} {p : Payload} (h : Boxing.packed tag raw = .ok p) :
    p.children = [] := by
  cases tag <;> simp only [Boxing.packed] at h
  case null | int => cases h; rfl
  case byte | char | bool =>
    split at h
    · cases h; rfl
    · cases h
  all_goals cases h

theorem Boxing.makesLeaf_scalar (tag : Tag) (raw : Int64) : (Boxing.scalar tag raw).MakesLeaf :=
  ⟨_, Boxing.scalar_settles tag raw, fun _ => Boxing.packed_children⟩

theorem Conversion.converted_children {c : Conversion} {x : Handle} {p : Payload} (h : c.converted x = .ok p) :
    p.children = [] := by
  unfold Conversion.converted at h
  split at h
  · cases h
  · split at h
    · cases h
    · split at h
      · cases h
      · split at h
        · exact Boxing.packed_children h
        · cases h

theorem Conversion.makesLeaf_apply (c : Conversion) (x : Handle) : (c.apply x).MakesLeaf :=
  ⟨_, c.apply_settles x, fun _ => Conversion.converted_children⟩

theorem Guard.makesLeaf_argument {k : Handle → Op Handle} (hk : ∀ x, (k x).MakesLeaf) (args : List Handle)
    (label : String) : (Guard.argument args label >>= k).MakesLeaf := by
  rcases Guard.argument_cases args label with ⟨x, -, -, hrun⟩ | ⟨f, -, -, -, hrun⟩
  · obtain ⟨o, ho, hleaf⟩ := hk x
    refine ⟨o, fun s => ?_, hleaf⟩
    rw [Op.bind_apply, hrun]
    exact ho s
  · refine ⟨.error f, fun s => ?_, nofun⟩
    rw [Op.bind_apply, hrun]
    rfl

theorem Conversion.makesLeaf_routine (c : Conversion) (args : List Handle) : (c.routine args).MakesLeaf :=
  Guard.makesLeaf_argument c.makesLeaf_apply args c.name

theorem Rendering.makesLeaf_routine (args : List Handle) : (Rendering.routine args).MakesLeaf := by
  refine Guard.makesLeaf_argument (fun x => ?_) args Rendering.name
  cases Rendering.rendered? x.payload with
  | some _ => exact Op.makesLeaf_box rfl
  | none => exact Op.makesLeaf_raise _

/-- A text that denotes something denotes a leaf, or a word under a scalar tag. -/
theorem Literal.value_cases {tag : Tag} {text : List Char} {make : Op Handle} (h : value? tag text = some make) :
    (∃ p, p.children = [] ∧ make = Op.box p) ∨ ∃ t raw, t.isScalar = true ∧ make = Boxing.scalar t raw := by
  cases tag <;> simp only [Literal.value?, Option.map_eq_some_iff, Option.some.injEq, reduceCtorEq] at h
  case null => exact Or.inl ⟨.null, rfl, h.symm⟩
  case string => exact Or.inl ⟨.string (String.ofList text), rfl, h.symm⟩
  case bool => obtain ⟨b, -, rfl⟩ := h; exact Or.inl ⟨.bool b, rfl, rfl⟩
  case real => obtain ⟨x, -, rfl⟩ := h; exact Or.inl ⟨.real x, rfl, rfl⟩
  case int => obtain ⟨n, -, rfl⟩ := h; exact Or.inr ⟨.int, n, rfl, rfl⟩
  case byte => obtain ⟨n, -, rfl⟩ := h; exact Or.inr ⟨.byte, n, rfl, rfl⟩
  case char => obtain ⟨n, -, rfl⟩ := h; exact Or.inr ⟨.char, n, rfl, rfl⟩

theorem Literal.makesLeaf_value {tag : Tag} {text : List Char} {make : Op Handle}
    (h : value? tag text = some make) : make.MakesLeaf := by
  rcases value_cases h with ⟨p, hp, rfl⟩ | ⟨t, raw, -, rfl⟩
  · exact Op.makesLeaf_box hp
  · exact Boxing.makesLeaf_scalar t raw

/-- A literal is none, or it makes what some text denotes under some tag. -/
theorem Literal.read_eq (literal : String) :
    (∃ e, read literal = pure (.error e)) ∨
      ∃ tag text make, value? tag text = some make ∧ read literal = .ok <$> make := by
  unfold read
  split
  · exact Or.inr ⟨.null, [], _, rfl, rfl⟩
  · split
    · exact Or.inl ⟨_, rfl⟩
    · split
      · exact Or.inl ⟨_, rfl⟩
      · split
        · exact Or.inl ⟨_, rfl⟩
        · split
          · exact Or.inl ⟨_, rfl⟩
          · exact Or.inr ⟨_, _, _, ‹_›, rfl⟩

/-! ## Ways to obtain a value -/

inductive Making where
  | null
  | bool (b : Bool)
  | int (n : Int64)
  | byte (raw : Int64)
  | char (raw : Int64)
  | real (x : Binary64)
  | string (s : String)
  | list (items : List Handle)
  | record (fields : List (String × Handle))
  | scalar (tag : Tag) (raw : Int64)
  | literal (text : String)
  /-- Any row, not only the shipped ones. -/
  | conversion (c : Conversion) (x : Handle)
  /-- The routine of any row, with any arguments. -/
  | convertRoutine (c : Conversion) (args : List Handle)
  | renderRoutine (args : List Handle)

namespace Making

/-- A text that is no literal makes nothing, and nothing goes wrong. -/
def run : Making → Op (Except LiteralError Handle)
  | null => .ok <$> Boxing.null
  | bool b => .ok <$> Boxing.bool b
  | int n => .ok <$> Boxing.int n
  | byte raw => .ok <$> Boxing.byte raw
  | char raw => .ok <$> Boxing.char raw
  | real x => .ok <$> Boxing.real x
  | string s => .ok <$> Boxing.string s
  | list items => .ok <$> Boxing.list items
  | record fields => .ok <$> Boxing.record fields
  | scalar tag raw => .ok <$> Boxing.scalar tag raw
  | literal text => Literal.read text
  | conversion c x => .ok <$> c.apply x
  | convertRoutine c args => .ok <$> c.routine args
  | renderRoutine args => .ok <$> Rendering.routine args

/-- The values that it is applied to. -/
def uses : Making → List Handle
  | list items => items
  | record fields => fields.map (·.2)
  | conversion _ x => [x]
  | convertRoutine _ args | renderRoutine args => args
  | _ => []

/-- What a step does to any session: one object more, which holds some of these handles;
    no literal and nothing done; or one fault. -/
inductive Comes (hs : List Handle) (x : Op (Except LiteralError Handle)) : Prop
  | value (p : Payload) : p.children ⊆ hs →
      (∀ s, x s = (.ok (.ok ⟨s.nextId, liveMagic, p.tag, p⟩), { s with nextId := s.nextId + 1 })) → Comes hs x
  | noLiteral (e : LiteralError) : (∀ s, x s = (.ok (.error e), s)) → Comes hs x
  | fault (f : Fault) : (∀ s, x s = (.error f, s.raised f)) → Comes hs x

theorem Comes.of_settles {hs : List Handle} {x : Op Handle} {o : Except Fault Payload} (hx : x.Settles o)
    (ho : ∀ p, o = .ok p → p.children ⊆ hs) : Comes hs (.ok <$> x) := by
  have hrun : ∀ s, (Except.ok <$> x : Op (Except LiteralError Handle)) s = match s.settled o with
      | (.ok y, s') => (.ok (.ok y), s')
      | (.error f, s') => (.error f, s') := fun s => by
    rw [map_eq_pure_bind, Op.bind_apply, hx s]
    cases o <;> rfl
  cases o with
  | ok p => exact .value p (ho p rfl) hrun
  | error f => exact .fault f hrun

theorem Comes.of_makesLeaf {hs : List Handle} {x : Op Handle} (h : x.MakesLeaf) : Comes hs (.ok <$> x) := by
  obtain ⟨o, ho, hleaf⟩ := h
  exact .of_settles ho fun p hp => by simp [hleaf p hp]

theorem comes_literal (hs : List Handle) (text : String) : Comes hs (Literal.read text) := by
  rcases Literal.read_eq text with ⟨e, hread⟩ | ⟨_, _, make, hmake, hread⟩
  · rw [hread]
    exact .noLiteral e fun _ => rfl
  · rw [hread]
    exact .of_makesLeaf (Literal.makesLeaf_value hmake)

/-- A record holds values that it was made from. -/
theorem children_record (fields : List (String × Handle)) :
    (Payload.record (OrderedMap.ofList fields)).children ⊆ fields.map (·.2) := by
  -- Insertion replaces values but never makes one up, whatever is in the map already.
  suffices ∀ m : List (String × Handle),
      fields.foldl (fun m p => OrderedMap.insert p.1 p.2 m) m ⊆ fields ++ m by
    have hmem := this []
    rw [List.append_nil] at hmem
    exact List.map_subset _ hmem
  induction fields with
  | nil => exact fun m => List.Subset.refl m
  | cons f fields ih =>
    intro m p hp
    rcases List.mem_append.mp (ih (OrderedMap.insert f.1 f.2 m) hp) with hp | hp
    · exact List.mem_cons_of_mem _ (List.mem_append_left m hp)
    · rcases OrderedMap.mem_insert hp with rfl | hp
      · exact List.mem_cons_self
      · exact List.mem_cons_of_mem _ (List.mem_append_right fields hp)

theorem run_cases (m : Making) : Comes m.uses m.run := by
  cases m with
  | null | bool | int | real | string => exact .of_makesLeaf (Op.makesLeaf_box rfl)
  | byte raw => exact .of_makesLeaf (Boxing.makesLeaf_scalar .byte raw)
  | char raw => exact .of_makesLeaf (Boxing.makesLeaf_scalar .char raw)
  | scalar tag raw => exact .of_makesLeaf (Boxing.makesLeaf_scalar tag raw)
  | list items => exact .of_settles (Op.settles_box (.list items)) fun p hp => by cases hp; exact List.Subset.refl _
  | record fields =>
    exact .of_settles (Op.settles_box (.record (OrderedMap.ofList fields))) fun p hp => by
      cases hp
      exact children_record fields
  | literal text => exact comes_literal [] text
  | conversion c x => exact .of_makesLeaf (c.makesLeaf_apply x)
  | convertRoutine c args => exact .of_makesLeaf (c.makesLeaf_routine args)
  | renderRoutine args => exact .of_makesLeaf (Rendering.makesLeaf_routine args)

end Making

/-! ## Programs of such steps -/

/-- What the step obtained. -/
def gained : Except Fault (Except LiteralError Handle) → List Handle
  | .ok (.ok x) => [x]
  | _ => []

/-- A session after some steps, each applied to values that earlier ones obtained, and the
    values obtained. A step that faults obtains none, and the program may go on. -/
inductive Made : Session → List Handle → Prop
  | start (s : Session) : Made s []
  | step {s : Session} {hs : List Handle} (m : Making) : Made s hs → m.uses ⊆ hs →
      Made (m.run s).2 (gained (m.run s).1 ++ hs)

theorem Made.obtain {s s' : Session} {hs : List Handle} {m : Making} {x : Handle} (h : Made s hs) (huses : m.uses ⊆ hs)
    (hrun : m.run s = (.ok (.ok x), s')) : Made s' (x :: hs) := by
  have := h.step m huses
  rwa [hrun] at this

theorem Made.everywhere_sound {s : Session} {hs : List Handle} (h : Made s hs) :
    ∀ x ∈ hs, x.Everywhere Handle.Sound := by
  induction h with
  | start => intro x hx; cases hx
  | @step s hs m _ huses ih =>
    cases m.run_cases with
    | value p hchildren hrun =>
      rw [hrun s]
      intro x hx
      -- The new object is sound itself and holds only values obtained before.
      rcases List.mem_cons.mp hx with rfl | hx
      · exact Handle.everywhere_iff.mpr ⟨⟨rfl, rfl⟩, fun y hy => ih y (huses (hchildren hy))⟩
      · exact ih x hx
    | noLiteral e hrun => rw [hrun s]; exact ih
    | fault f hrun => rw [hrun s]; exact ih

/-! ## Well-formedness -/

/-- A header that nobody can complain of. -/
structure Handle.WellFormed (x : Handle) : Prop where
  sound : x.Sound
  header : validHeader x.magic x.tag.raw = true
  checked : ∀ label s, Guard.check x label s = (.ok (), s)
  pointer : ∀ label s, Guard.checkPointer (.object x) label s = (.ok x, s)
  scalar : x.scalar?.isSome = true ↔ x.tag.isScalar = true

theorem Handle.Sound.wellFormed {x : Handle} (h : x.Sound) : x.WellFormed where
  sound := h
  header := by simp [validHeader, h.1, Tag.ofRaw?_raw]
  checked label s := by rw [Guard.check_apply, Guard.fault?_eq_none_iff.mpr h]
  pointer label s := by
    rw [Guard.checkPointer_object, Guard.fault?_eq_none_iff.mpr h]
  scalar := by rw [Handle.scalar?, Payload.scalar?_isSome, h.2]

theorem Made.well_formed {s : Session} {hs : List Handle} (h : Made s hs) :
    ∀ x ∈ hs, x.Everywhere Handle.WellFormed :=
  fun x hx y hy => (h.everywhere_sound x hx y hy).wellFormed

/-- A record around the byte that a conversion makes of the literal `char:A`. -/
theorem made_record_well_formed :
    let letter : Handle := ⟨0, liveMagic, .char, .char 'A'⟩
    let byte : Handle := ⟨1, liveMagic, .byte, .byte 65⟩
    let boxed : Handle := ⟨2, liveMagic, .record, .record [("code", byte), ("letter", letter)]⟩
    Made ⟨0, #[], 3⟩ [boxed, byte, letter] ∧ boxed.Everywhere Handle.WellFormed := by
  intro letter byte boxed
  have read : Made ⟨0, #[], 1⟩ [letter] := (Made.start {}).obtain (m := .literal "char:A") (List.Subset.refl _) rfl
  have converted : Made ⟨0, #[], 2⟩ [byte, letter] :=
    read.obtain (m := .convertRoutine .toUnsignedByte [letter]) (List.Subset.refl _) rfl
  have made : Made ⟨0, #[], 3⟩ [boxed, byte, letter] := by
    refine converted.obtain (m := .record [("letter", letter), ("code", byte)]) (by simp [Making.uses]) ?_
    have order : compare "code" "letter" = .lt := by decide
    simp only [Making.run, Boxing.record, OrderedMap.ofList, List.foldl_cons, List.foldl_nil, OrderedMap.insert, order]
    rfl
  exact ⟨made, Made.well_formed made boxed List.mem_cons_self⟩

end BoxedRuntime
