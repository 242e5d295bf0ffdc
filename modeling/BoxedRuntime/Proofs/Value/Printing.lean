/-
  BoxedRuntime.Proofs.Value.Printing — what is printed stays on its line.

  Record keys are printed as they are; everything else of a value is printed in words,
  numerals and escapes. So as long as the keys are printable ASCII, at whatever depth they
  stand, the printed form is printable ASCII too, whatever the strings and characters in it
  are, and it hides nothing of them: a string or a character between its quotes reads back
  as it was.

  A call from the command line prints the tag and the value of what the routine gave. The
  routines of the runtime make no records, so there is no condition on the call: a literal
  cannot break the line.

  Main statements:
  - `Handle.plain_text`: the printed form of a value with plain keys is plain.
  - `Runtime.call_makes_leaf`: what a routine of the runtime gives holds no other value.
  - `prints_one_line`: a value, and a call, on one line.
-/
import BoxedRuntime.Proofs.Command.Calling
import BoxedRuntime.Proofs.Text.Plain
import BoxedRuntime.Proofs.Text.Unescaping
import BoxedRuntime.Proofs.Value.Construction
import BoxedRuntime.Proofs.Value.Separation

namespace BoxedRuntime

/-! ## Values -/

def Payload.PlainKeys (p : Payload) : Prop := ∀ k ∈ p.keys, PlainText k.toList

theorem Payload.plainKeys_of_leaf {p : Payload} (h : p.children = []) : p.PlainKeys := by
  intro k hk
  cases p with
  | record fs =>
    have hfs : fs = [] := List.map_eq_nil_iff.mp h
    rw [hfs] at hk
    cases hk
  | _ => cases hk

theorem plain_joined {α : Type} {piece : α → List Char} {xs : List α} (h : ∀ x ∈ xs, PlainText (piece x)) :
    PlainText (joined piece xs) := by
  cases xs with
  | nil => exact .nil
  | cons x xs =>
    have hrest : PlainText (xs.flatMap fun y => ',' :: piece y) :=
      .flatMap fun y hy => PlainText.cons_iff.mpr ⟨by decide, h y (List.mem_cons_of_mem x hy)⟩
    exact PlainText.append_iff.mpr ⟨h x List.mem_cons_self, hrest⟩

theorem Payload.plain_text {p : Payload} (hkeys : p.PlainKeys) (hc : ∀ y ∈ p.children, PlainText y.text) :
    PlainText p.text := by
  cases p with
  | null => decide
  | bool b => cases b <;> decide
  | byte b => exact PlainText.append_iff.mpr ⟨Numeral.plain_byteDigits b, by decide⟩
  | char c => exact .between (by decide) (Escape.plain_char c) (by decide)
  | int n => exact Numeral.plain_ofInt64 n
  | real x => exact x.plain_text
  | string s => exact .between (by decide) (Escape.plain_text s.toList) (by decide)
  | list xs =>
    rw [Payload.text, itemsText_eq]
    exact .between (by decide) (plain_joined hc) (by decide)
  | record fs =>
    rw [Payload.text, fieldsText_eq]
    refine .between (by decide) (plain_joined fun f hf => ?_) (by decide)
    have hkey : PlainText f.1.toList := hkeys f.1 (List.mem_map_of_mem hf)
    have hvalue : PlainText f.2.text := hc f.2 (List.mem_map_of_mem hf)
    exact PlainText.append_iff.mpr ⟨hkey, PlainText.cons_iff.mpr ⟨by decide, hvalue⟩⟩

theorem Handle.plain_text (x : Handle) : x.Everywhere (·.payload.PlainKeys) → PlainText x.text := by
  induction x using Handle.induct with
  | step x ih =>
    intro hx
    obtain ⟨hkeys, hc⟩ := Handle.everywhere_iff.mp hx
    rw [x.text_eq]
    exact Payload.plain_text hkeys fun y hy => ih y hy (hc y hy)

theorem Handle.plain_display {x : Handle} (h : x.Everywhere (·.payload.PlainKeys)) : PlainText x.display.toList := by
  rw [Handle.display, String.toList_ofList]
  exact x.plain_text h

theorem Tag.plain_name (t : Tag) : PlainText t.name.toList := by cases t <;> decide

theorem Handle.plain_debug {x : Handle} (h : x.Everywhere (·.payload.PlainKeys)) : PlainText x.debug.toList := by
  simp only [Handle.debug, String.toList_append, PlainText.append_iff]
  exact ⟨⟨⟨x.tag.plain_name, by decide⟩, Handle.plain_display h⟩, by decide⟩

/-! ## Strings and characters -/

theorem Handle.unquote?_string {x : Handle} {s : String} (h : x.payload = .string s) :
    Escape.unquote? '"' x.display.toList = some s.toList := by
  rw [Handle.display, String.toList_ofList, x.text_eq, h]
  exact Escape.unquote?_quoted '"' s.toList

theorem Handle.unquote?_char {x : Handle} {c : Char} (h : x.payload = .char c) :
    Escape.unquote? '\'' x.display.toList = some [c] := by
  rw [Handle.display, String.toList_ofList, x.text_eq, h]
  have htext : Escape.text [c] = Escape.char c := List.flatMap_singleton Escape.char c
  have := Escape.unquote?_quoted '\'' [c]
  rwa [htext] at this

/-! ## Calls -/

theorem Runtime.call_makes_leaf {s s' t t' : Session} {r : Runtime} (h : Runtime.boot [] [] s = (.ok r, s'))
    {name : String} {signature : Signature} {args : List Handle} {y : Handle}
    (hcall : r.call name signature args t = (.ok (.ok y), t')) : y.payload.children = [] := by
  unfold Runtime.call Registry.call at hcall
  cases hlookup : r.registry.lookup name signature with
  | none =>
    rw [hlookup] at hcall
    cases hcall
  | some f =>
    have hleaf : (f args).MakesLeaf := by
      rcases Runtime.lookup_cases h hlookup with ⟨c, -, rfl⟩ | rfl
      · exact c.makesLeaf_routine args
      · exact Rendering.makesLeaf_routine args
    obtain ⟨o, ho, hchildren⟩ := hleaf
    simp only [hlookup, map_eq_pure_bind, Op.bind_apply, ho t] at hcall
    cases o with
    | error fault => cases hcall
    | ok p =>
      cases hcall
      exact hchildren p rfl

namespace Command

/-- Only a command that succeeds leaves the status zero. -/
theorem finish_zero {result : Except Fault Answer} {logText : String} (h : (finish result logText).status = 0) :
    ∃ stdout, result = .ok ⟨stdout, none⟩ ∧ (finish result logText).stdout = stdout := by
  cases result with
  | error f => cases hk : f.kind <;> simp [finish, hk, FaultKind.exitStatus] at h
  | ok answer =>
    obtain ⟨stdout, error⟩ := answer
    cases error with
    | none => exact ⟨stdout, rfl, rfl⟩
    | some message => simp [finish] at h

theorem callRoutine_ok {r : Runtime} {name literal stdout : String} {signature : Signature} {s s' : Session}
    (h : callRoutine r name signature literal s = (.ok ⟨stdout, none⟩, s')) :
    ∃ x y t, r.call name signature [x] t = (.ok (.ok y), s') ∧ stdout = y.tag.name ++ " " ++ y.display ++ "\n" := by
  unfold callRoutine at h
  rw [Op.bind_apply] at h
  rcases hread : Literal.read literal s with ⟨_ | _ | x, t⟩ <;> rw [hread] at h
  · cases h
  · cases h
  · dsimp only at h
    rw [Op.bind_apply] at h
    rcases hcall : r.call name signature [x] t with ⟨_ | _ | y, t'⟩ <;> rw [hcall] at h
    · cases h
    · cases h
    · cases h
      exact ⟨x, y, t, hcall, rfl⟩

/-- What a successful call writes: a line. -/
theorem call_line {name literal : String} {signature : Signature} {verbose : Bool} {env : Environment}
    (h : (run (.call name signature literal) verbose env).status = 0) :
    ∃ line, (run (.call name signature literal) verbose env).stdout.toList = line ++ ['\n'] ∧ PlainText line ∧
      '\n' ∉ line := by
  obtain ⟨stdout, hanswer, hstdout⟩ := finish_zero h
  obtain ⟨s', hrun⟩ : ∃ s', answer (.call name signature literal) {} = (.ok ⟨stdout, none⟩, s') := ⟨_, Prod.ext hanswer rfl⟩
  unfold answer at hrun
  rw [Op.bind_apply] at hrun
  rcases hboot : Runtime.boot [] [] {} with ⟨_ | r, s⟩ <;> rw [hboot] at hrun
  · cases hrun
  obtain ⟨x, y, t, hcall, rfl⟩ := callRoutine_ok hrun
  have hleaf := Runtime.call_makes_leaf hboot hcall
  have hplain : y.Everywhere (·.payload.PlainKeys) :=
    Handle.everywhere_iff.mpr ⟨Payload.plainKeys_of_leaf hleaf, by simp [hleaf]⟩
  have hline : PlainText (y.tag.name.toList ++ ' ' :: y.display.toList) :=
    PlainText.append_iff.mpr ⟨y.tag.plain_name, PlainText.cons_iff.mpr ⟨by decide, Handle.plain_display hplain⟩⟩
  refine ⟨_, ?_, hline, hline.newline_not_mem⟩
  show (finish _ _).stdout.toList = _
  rw [hstdout]
  simp

end Command

/-! ## On one line -/

/-- However deep a value is nested, only its keys decide whether it prints in plain text;
    strings and characters can be read back; and a successful call writes one line. -/
theorem prints_one_line :
    (∀ x : Handle, x.Everywhere (·.payload.PlainKeys) → PlainText x.display.toList ∧ PlainText x.debug.toList) ∧
    (∀ x : Handle,
      (∀ s, x.payload = .string s → Escape.unquote? '"' x.display.toList = some s.toList) ∧
      ∀ c, x.payload = .char c → Escape.unquote? '\'' x.display.toList = some [c]) ∧
    ∀ arguments verbose name signature literal env,
      Environment.parser env arguments = some (.run verbose (.call name signature literal)) →
      ∃ o, runArguments arguments env = some o ∧
        (o.status = 0 → ∃ line, o.stdout.toList = line ++ ['\n'] ∧ PlainText line ∧ '\n' ∉ line) := by
  refine ⟨fun x hx => ⟨Handle.plain_display hx, Handle.plain_debug hx⟩, ?_, ?_⟩
  · exact fun x => ⟨fun s => Handle.unquote?_string, fun c => Handle.unquote?_char⟩
  · intro arguments verbose name signature literal env h
    refine ⟨Command.run (.call name signature literal) verbose env, ?_, Command.call_line⟩
    rw [runArguments, h]
    rfl

/-- A record whose string breaks the line twice, closes its quotes and spells an escape;
    and a call on such a literal. -/
theorem hostile_texts_on_one_line :
    let hostile : Handle := ⟨0, liveMagic, .string, .string "\n\"\\n\\u\x7b41\x7d λ"⟩
    let letter : Handle := ⟨1, liveMagic, .char, .char '\''⟩
    let list : Handle := ⟨2, liveMagic, .list, .list [hostile, letter]⟩
    let x : Handle := ⟨3, 0, .int, .record [("a key", list)]⟩
    PlainText x.display.toList ∧ PlainText x.debug.toList ∧
      Escape.unquote? '"' hostile.display.toList = some "\n\"\\n\\u\x7b41\x7d λ".toList ∧
      Escape.unquote? '\'' letter.display.toList = some ['\''] ∧
      ∃ o line, runArguments ["call", "toString", "[^s,v,a]", "string:a\r\nb\"λ"] {} = some o ∧ o.status = 0 ∧
        o.stdout.toList = line ++ ['\n'] ∧ PlainText line := by
  intro hostile letter list x
  obtain ⟨hprinted, hread, hcalled⟩ := prints_one_line
  have leaf : ∀ {y : Handle}, y.payload.children = [] → y.Everywhere (·.payload.PlainKeys) := fun hy =>
    Handle.everywhere_iff.mpr ⟨Payload.plainKeys_of_leaf hy, by simp [hy]⟩
  have hlist : list.Everywhere (·.payload.PlainKeys) := by
    refine Handle.everywhere_iff.mpr ⟨by simp [list, Payload.PlainKeys, Payload.keys], fun y hy => leaf ?_⟩
    rcases List.mem_pair.mp (show y ∈ [hostile, letter] from hy) with rfl | rfl <;> rfl
  have hx : x.Everywhere (·.payload.PlainKeys) := by
    refine Handle.everywhere_iff.mpr ⟨fun k hk => ?_, fun y hy => ?_⟩
    · rw [List.mem_singleton.mp (show k ∈ ["a key"] from hk)]
      decide
    · rw [List.mem_singleton.mp (show y ∈ [list] from hy)]
      exact hlist
  have hargs : Environment.parser {} ["call", "toString", "[^s,v,a]", "string:a\r\nb\"λ"] =
      some (.run false (.call "toString" ⟨"[^s,v,a]"⟩ "string:a\r\nb\"λ")) := by decide +kernel
  obtain ⟨o, hrun, hline⟩ := hcalled _ _ _ _ _ _ hargs
  have hstatus : o.status = 0 := by
    have : (runArguments ["call", "toString", "[^s,v,a]", "string:a\r\nb\"λ"] {}).map (·.status) = some 0 := by
      decide +kernel
    rw [hrun] at this
    exact Option.some.inj this
  obtain ⟨line, hstdout, hplain, -⟩ := hline hstatus
  exact ⟨(hprinted x hx).1, (hprinted x hx).2, (hread hostile).1 _ rfl, (hread letter).2 _ rfl,
    o, line, hrun, hstatus, hstdout, hplain⟩

end BoxedRuntime
