import Mathlib.Data.List.Lex
import Mathlib.Data.Nat.Basic
import Chatroom.Codec.JsonLexer

/-!
# The parser of `json.hpp`

`parser::parse`: the loop of `sax_parse_internal` over the tokens, with `json_sax_dom_parser` building the value.
`states` and `ref_stack` are one stack of open arrays and objects (`Frame`).

The loop ends on every input, and what it accepts is well formed (`parse_cases`). What `dump` writes is read back,
so that the library is faithful on every value that the program stores (`faithful_nlohmann`).
-/

namespace Chatroom.Json

open Lib

/-! ## Values -/

/-- The order of the keys of a `std::map<std::string, …>`. -/
def keyLt (a b : String) : Prop := (utf8 a.toList).map UInt8.toNat < (utf8 b.toList).map UInt8.toNat

instance (a b : String) : Decidable (keyLt a b) := inferInstanceAs (Decidable (_ < _))

/-- A value as the library holds it: integers of 64 bits, and objects with their keys in order; `doubles` says
whether there may be doubles. -/
inductive Valid (doubles : Prop) : Json → Prop
  | null : Valid doubles .null
  | bool (b : Bool) : Valid doubles (.bool b)
  | num {n : ℤ} (h : InRange n) : Valid doubles (.num n)
  | real (x : Double) (h : doubles) : Valid doubles (.real x)
  | str (s : String) : Valid doubles (.str s)
  | arr {items : List Json} (h : ∀ js ∈ items, Valid doubles js) : Valid doubles (.arr items)
  | obj {fields : List (String × Json)} (hkeys : fields.Pairwise fun f g => keyLt f.1 g.1)
      (h : ∀ f ∈ fields, Valid doubles f.2) : Valid doubles (.obj fields)

/-- `(*object)[key] = value` on a `std::map`. -/
def insertField (key : String) (value : Json) : List (String × Json) → List (String × Json)
  | [] => [(key, value)]
  | f :: fields =>
    if keyLt key f.1 then (key, value) :: f :: fields
    else if key = f.1 then (key, value) :: fields
    else f :: insertField key value fields

/-- The `std::string` with these bytes. -/
def ofBytes (l : Bytes) : String := if h : l.toByteArray.IsValidUTF8 then .ofByteArray l.toByteArray h else ""

/-! ## The loop -/

/-- An array or object that is not closed, with what it holds, and the key whose value comes next. -/
inductive Frame where
  | array (items : List Json)
  | object (fields : List (String × Json)) (key : String)

/-- Where the loop stands: before a value, whose first token was read, or after a value (`skip_to_state_evaluation`
and what follows it). -/
inductive Place where
  | before (last : Token)
  | after (value : Json)

structure State where
  place : Place
  frames : List Frame
  input : Bytes

abbrev Result := Except Exn (Json × Bytes)

variable (strtod : Strtod)

/-- The value is complete. -/
def State.done (value : Json) (frames : List Frame) (input : Bytes) : State ⊕ Result :=
  .inl ⟨.after value, frames, input⟩

def State.fail (e : Exn) : State ⊕ Result := .inr (.error e)

/-- A key, the separator and the first token of the value: the same after `{` and after a comma. -/
def parseMember (fields : List (String × Json)) (frames : List Frame) (key : Bytes) (input : Bytes) :
    State ⊕ Result :=
  match scan strtod input with
  | (.nameSeparator, input) =>
    let (t, input) := scan strtod input
    .inl ⟨.before t, .object fields (ofBytes key) :: frames, input⟩
  | _ => State.fail .parseError

/-- A round of the loop of `sax_parse_internal`. -/
def saxStep : State → State ⊕ Result
  | ⟨.before last, frames, input⟩ =>
    match last with
    | .beginObject =>
      match scan strtod input with
      | (.endObject, input) => State.done (.obj []) frames input
      | (.valueString key, input) => parseMember strtod [] frames key input
      | _ => State.fail .parseError
    | .beginArray =>
      match scan strtod input with
      | (.endArray, input) => State.done (.arr []) frames input
      | (t, input) => .inl ⟨.before t, .array [] :: frames, input⟩
    | .valueFloat none => State.fail .outOfRange
    | .valueFloat (some x) => State.done (.real x) frames input
    | .literalFalse => State.done (.bool false) frames input
    | .literalNull => State.done .null frames input
    | .literalTrue => State.done (.bool true) frames input
    | .valueInteger n => State.done (.num n) frames input
    | .valueString s => State.done (.str (ofBytes s)) frames input
    | .valueUnsigned n => State.done (.num n) frames input
    | _ => State.fail .parseError
  | ⟨.after value, [], input⟩ => .inr (.ok (value, input))
  | ⟨.after value, .array items :: frames, input⟩ =>
    match scan strtod input with
    | (.valueSeparator, input) =>
      let (t, input) := scan strtod input
      .inl ⟨.before t, .array (items ++ [value]) :: frames, input⟩
    | (.endArray, input) => State.done (.arr (items ++ [value])) frames input
    | _ => State.fail .parseError
  | ⟨.after value, .object fields key :: frames, input⟩ =>
    match scan strtod input with
    | (.valueSeparator, input) =>
      match scan strtod input with
      | (.valueString key', input) => parseMember strtod (insertField key value fields) frames key' input
      | _ => State.fail .parseError
    | (.endObject, input) => State.done (.obj (insertField key value fields)) frames input
    | _ => State.fail .parseError

/-- What is left to do: the bytes to come count twice, and nothing follows a token that begins no value. -/
def State.measure (s : State) : ℕ :=
  match s.place with
  | .before .parseError | .before .endOfInput => 0
  | .before .beginObject | .before .beginArray => 2 * s.input.length + 3
  | .before _ => 2 * s.input.length + 2
  | .after _ => 2 * s.input.length + 1

/-- `parser::parse` in strict mode. -/
def parse (input : Bytes) : Except Exn Json :=
  match skipBom input with
  | none => .error .parseError
  | some input =>
    let (t, input) := scan strtod input
    match (loop (saxStep strtod) (2 * input.length + 4) ⟨.before t, [], input⟩).getD (.error .parseError) with
    | .error e => .error e
    | .ok (value, input) => if (scan strtod input).1 = .endOfInput then .ok value else .error .parseError

/-- The library. -/
def nlohmann : JsonLib := ⟨Json.dump, parse strtod⟩

variable {strtod : Strtod}

/-! ## The loop ends -/

theorem measure_le (t : Token) (frames : List Frame) (input : Bytes) :
    State.measure ⟨.before t, frames, input⟩ ≤ 2 * input.length + 3 := by
  cases t <;> simp [State.measure]

theorem measure_before {input rest : Bytes} {t : Token} (h : scan strtod input = (t, rest)) (frames : List Frame) :
    State.measure ⟨.before t, frames, rest⟩ ≤ 2 * input.length + 1 := by
  by_cases herror : t = .parseError
  · subst herror
    exact Nat.zero_le _
  by_cases hend : t = .endOfInput
  · subst hend
    exact Nat.zero_le _
  have hlength := length_scan strtod h herror hend
  exact (measure_le t frames rest).trans (by omega)

theorem measure_parseMember {fields : List (String × Json)} {frames : List Frame} {key input : Bytes} {t : State}
    (h : parseMember strtod fields frames key input = .inl t) : t.measure ≤ 2 * input.length + 1 := by
  unfold parseMember at h
  split at h
  case h_1 rest hsep =>
    have hlength := length_scan strtod hsep (by simp) (by simp)
    obtain rfl := Sum.inl.inj h
    have hle := measure_before (show scan strtod rest = (_, _) from rfl) (.object fields (ofBytes key) :: frames)
    omega
  case h_2 => cases h

/-- Every round leaves less to do. -/
theorem measure_saxStep {s t : State} (h : saxStep strtod s = .inl t) : t.measure < s.measure := by
  obtain ⟨place, frames, input⟩ := s
  cases place with
  | before last =>
    cases last with
    | beginObject =>
      simp only [saxStep] at h
      split at h
      case h_1 rest hscan =>
        have hlength := length_scan strtod hscan (by simp) (by simp)
        obtain rfl := Sum.inl.inj h
        simp only [State.measure]
        omega
      case h_2 key rest hscan =>
        have hlength := length_scan strtod hscan (by simp) (by simp)
        have hle := measure_parseMember h
        simp only [State.measure] at hle ⊢
        omega
      case h_3 => cases h
    | beginArray =>
      simp only [saxStep] at h
      split at h
      case h_1 rest hscan =>
        have hlength := length_scan strtod hscan (by simp) (by simp)
        obtain rfl := Sum.inl.inj h
        simp only [State.measure]
        omega
      case h_2 t' rest hscan =>
        obtain rfl := Sum.inl.inj h
        exact Nat.lt_of_le_of_lt (measure_before hscan _) (by simp only [State.measure]; omega)
    | valueFloat x =>
      cases x with
      | none => cases h
      | some x =>
        obtain rfl := Sum.inl.inj h
        exact Nat.lt_succ_self _
    | literalTrue | literalFalse | literalNull | valueString | valueUnsigned | valueInteger =>
      obtain rfl := Sum.inl.inj h
      exact Nat.lt_succ_self _
    | endArray | endObject | nameSeparator | valueSeparator | parseError | endOfInput => cases h
  | after value =>
    match frames with
    | [] => cases h
    | .array items :: frames =>
      simp only [saxStep] at h
      split at h
      case h_1 rest hscan =>
        have hlength := length_scan strtod hscan (by simp) (by simp)
        obtain rfl := Sum.inl.inj h
        have hle := measure_before (show scan strtod rest = (_, _) from rfl) (.array (items ++ [value]) :: frames)
        exact Nat.lt_of_le_of_lt hle (by simp only [State.measure]; omega)
      case h_2 rest hscan =>
        have hlength := length_scan strtod hscan (by simp) (by simp)
        obtain rfl := Sum.inl.inj h
        simp only [State.measure]
        omega
      case h_3 => cases h
    | .object fields key :: frames =>
      simp only [saxStep] at h
      split at h
      case h_1 rest hscan =>
        have hlength := length_scan strtod hscan (by simp) (by simp)
        split at h
        case h_1 key' rest' hkey =>
          have hlength' := length_scan strtod hkey (by simp) (by simp)
          have hle := measure_parseMember h
          exact Nat.lt_of_le_of_lt hle (by simp only [State.measure]; omega)
        case h_2 => cases h
      case h_2 rest hscan =>
        have hlength := length_scan strtod hscan (by simp) (by simp)
        obtain rfl := Sum.inl.inj h
        simp only [State.measure]
        omega
      case h_3 => cases h

variable (strtod) in
/-- The bound on the rounds is never reached. -/
theorem isSome_parse (t : Token) (input : Bytes) :
    (loop (saxStep strtod) (2 * input.length + 4) ⟨.before t, [], input⟩).isSome :=
  isSome_of_variant (fun _ _ => measure_saxStep) (Nat.lt_succ_of_le (measure_le t [] input))

/-! ## What is accepted is well formed -/

theorem utf8_injective : Function.Injective utf8 := by
  intro cs cs' h
  have hbytes : (String.ofList cs).toByteArray = (String.ofList cs').toByteArray := by
    rw [String.toByteArray_ofList, String.toByteArray_ofList]
    exact congrArg List.toByteArray h
  exact String.ofList_injective (String.toByteArray_inj.1 hbytes)

theorem keyLt_trans {a b c : String} (hab : keyLt a b) (hbc : keyLt b c) : keyLt a c := List.lt_trans hab hbc

theorem keyLt_of_not {a b : String} (h : ¬ keyLt a b) (hne : a ≠ b) : keyLt b a := by
  have hkeys : (utf8 a.toList).map UInt8.toNat ≠ (utf8 b.toList).map UInt8.toNat := by
    intro heq
    have hinj : Function.Injective UInt8.toNat := fun x y hxy => UInt8.toNat_inj.1 hxy
    exact hne (String.toList_inj.1 (utf8_injective (hinj.list_map heq)))
  exact lt_of_le_of_ne (not_lt.1 h) hkeys.symm

theorem mem_insertField {key : String} {value : Json} {fields : List (String × Json)} {g : String × Json}
    (h : g ∈ insertField key value fields) : g = (key, value) ∨ g ∈ fields := by
  induction fields with
  | nil => exact .inl (List.mem_singleton.1 h)
  | cons f fields ih =>
    rw [insertField] at h
    split_ifs at h
    · exact List.mem_cons.1 h
    · exact (List.mem_cons.1 h).imp_right (List.mem_cons_of_mem _)
    · rcases List.mem_cons.1 h with rfl | h
      · exact .inr (List.mem_cons_self ..)
      · exact (ih h).imp_right (List.mem_cons_of_mem _)

/-- The keys stay in order. -/
theorem pairwise_insertField {key : String} (value : Json) {fields : List (String × Json)}
    (h : fields.Pairwise fun f g => keyLt f.1 g.1) :
    (insertField key value fields).Pairwise fun f g => keyLt f.1 g.1 := by
  induction fields with
  | nil => exact List.pairwise_singleton _ _
  | cons f fields ih =>
    obtain ⟨hf, hfields⟩ := List.pairwise_cons.1 h
    rw [insertField]
    split_ifs with hlt heq
    · refine List.pairwise_cons.2 ⟨fun g hg => ?_, h⟩
      rcases List.mem_cons.1 hg with rfl | hg
      · exact hlt
      · exact keyLt_trans hlt (hf g hg)
    · subst heq
      exact List.pairwise_cons.2 ⟨hf, hfields⟩
    · refine List.pairwise_cons.2 ⟨fun g hg => ?_, ih hfields⟩
      rcases mem_insertField hg with rfl | hg
      · exact keyLt_of_not hlt heq
      · exact hf g hg

/-- The numbers of a token have 64 bits. -/
def Token.Ok : Token → Prop
  | .valueUnsigned n => InRange n
  | .valueInteger n => InRange n
  | _ => True

theorem ok_convert (t : NumberType) (buffer : Bytes) : (convert strtod t buffer).Ok := by
  cases t with
  | unsigned =>
    simp only [convert]
    split
    · simp only [Token.Ok, InRange]
      omega
    · trivial
  | integer =>
    simp only [convert]
    split
    · simp only [Token.Ok, InRange]
      omega
    · trivial
  | float => trivial

theorem ok_scan {input rest : Bytes} {t : Token} (h : scan strtod input = (t, rest)) : t.Ok := by
  have hstructural : ∀ b, structural b = some t → t.Ok := by
    intro b hb
    unfold structural at hb
    split_ifs at hb
    all_goals
      obtain rfl := Option.some.inj hb
      trivial
  have hliteral : ∀ b text, literal b = some (text, t) → t.Ok := by
    intro b text hb
    unfold literal at hb
    split_ifs at hb
    all_goals
      obtain rfl := (Prod.mk.inj (Option.some.inj hb)).2
      trivial
  unfold scan at h
  split at h
  case h_1 =>
    obtain rfl := (Prod.mk.inj h).1
    trivial
  case h_2 b l _ =>
    split at h
    case h_1 hb => exact hstructural b ((Prod.mk.inj h).1 ▸ hb)
    case h_2 text t' _ hb =>
      unfold scanLiteral at h
      split at h
      · exact hliteral b text ((Prod.mk.inj h).1 ▸ hb)
      · obtain rfl := (Prod.mk.inj h).1
        trivial
    case h_3 =>
      split at h
      · by_cases herror : t = .parseError
        · subst herror
          trivial
        · obtain ⟨cs, rfl⟩ := (valid_scanString h herror).1
          trivial
      split at h
      · simp only [scanNumber] at h
        split at h
        · exact (Prod.mk.inj h).1 ▸ ok_convert _ _
        · obtain rfl := (Prod.mk.inj h).1
          trivial
      split at h
      all_goals
        obtain rfl := (Prod.mk.inj h).1
        trivial

/-- What an open array or object holds is well formed. -/
def Frame.Ok : Frame → Prop
  | .array items => ∀ js ∈ items, Valid True js
  | .object fields _ => (fields.Pairwise fun f g => keyLt f.1 g.1) ∧ ∀ f ∈ fields, Valid True f.2

def Place.Ok : Place → Prop
  | .before last => last.Ok
  | .after value => Valid True value

structure State.Ok (s : State) : Prop where
  place : s.place.Ok
  frames : ∀ frame ∈ s.frames, frame.Ok

theorem ok_insertField {key : String} {value : Json} {fields : List (String × Json)}
    (h : Frame.Ok (.object fields key)) (hvalue : Valid True value) :
    Frame.Ok (.object (insertField key value fields) key) := by
  refine ⟨pairwise_insertField value h.1, fun g hg => ?_⟩
  rcases mem_insertField hg with rfl | hg
  · exact hvalue
  · exact h.2 g hg

theorem ok_array {items : List Json} {value : Json} (h : Frame.Ok (.array items)) (hvalue : Valid True value) :
    Frame.Ok (.array (items ++ [value])) := by
  intro js hjs
  rcases List.mem_append.1 hjs with hjs | hjs
  · exact h js hjs
  · exact List.mem_singleton.1 hjs ▸ hvalue

theorem ok_parseMember {fields : List (String × Json)} {frames : List Frame} {key input : Bytes} {t : State}
    (h : parseMember strtod fields frames key input = .inl t) (hfields : Frame.Ok (.object fields ""))
    (hframes : ∀ frame ∈ frames, frame.Ok) : t.Ok := by
  unfold parseMember at h
  split at h
  case h_1 rest _ =>
    obtain rfl := Sum.inl.inj h
    exact ⟨ok_scan (show scan strtod rest = (_, _) from rfl), List.forall_mem_cons.2 ⟨hfields, hframes⟩⟩
  case h_2 => cases h

/-- A round keeps what is held well formed. -/
theorem ok_saxStep {s t : State} (hs : s.Ok) (h : saxStep strtod s = .inl t) : t.Ok := by
  obtain ⟨place, frames, input⟩ := s
  obtain ⟨hplace, hframes⟩ := hs
  cases place with
  | before last =>
    cases last with
    | beginObject =>
      simp only [saxStep] at h
      split at h
      case h_1 =>
        obtain rfl := Sum.inl.inj h
        exact ⟨.obj .nil (by simp), hframes⟩
      case h_2 => exact ok_parseMember h ⟨.nil, by simp⟩ hframes
      case h_3 => cases h
    | beginArray =>
      simp only [saxStep] at h
      split at h
      case h_1 =>
        obtain rfl := Sum.inl.inj h
        exact ⟨.arr (by simp), hframes⟩
      case h_2 hscan =>
        obtain rfl := Sum.inl.inj h
        exact ⟨ok_scan hscan, List.forall_mem_cons.2 ⟨by simp [Frame.Ok], hframes⟩⟩
    | valueFloat x =>
      cases x with
      | none => cases h
      | some x =>
        obtain rfl := Sum.inl.inj h
        exact ⟨.real _ trivial, hframes⟩
    | literalTrue | literalFalse =>
      obtain rfl := Sum.inl.inj h
      exact ⟨.bool _, hframes⟩
    | literalNull =>
      obtain rfl := Sum.inl.inj h
      exact ⟨.null, hframes⟩
    | valueString =>
      obtain rfl := Sum.inl.inj h
      exact ⟨.str _, hframes⟩
    | valueUnsigned | valueInteger =>
      obtain rfl := Sum.inl.inj h
      exact ⟨.num hplace, hframes⟩
    | endArray | endObject | nameSeparator | valueSeparator | parseError | endOfInput => cases h
  | after value =>
    match frames with
    | [] => cases h
    | .array items :: frames =>
      obtain ⟨hitems, hframes⟩ := List.forall_mem_cons.1 hframes
      have hitems := ok_array hitems hplace
      simp only [saxStep] at h
      split at h
      case h_1 rest _ =>
        obtain rfl := Sum.inl.inj h
        exact ⟨ok_scan (show scan strtod rest = (_, _) from rfl), List.forall_mem_cons.2 ⟨hitems, hframes⟩⟩
      case h_2 =>
        obtain rfl := Sum.inl.inj h
        exact ⟨.arr hitems, hframes⟩
      case h_3 => cases h
    | .object fields key :: frames =>
      obtain ⟨hfields, hframes⟩ := List.forall_mem_cons.1 hframes
      have hfields := ok_insertField hfields hplace
      simp only [saxStep] at h
      split at h
      case h_1 =>
        split at h
        case h_1 => exact ok_parseMember h hfields hframes
        case h_2 => cases h
      case h_2 =>
        obtain rfl := Sum.inl.inj h
        exact ⟨.obj hfields.1 hfields.2, hframes⟩
      case h_3 => cases h

theorem exit_saxStep {s : State} {r : Result} (h : saxStep strtod s = .inr r) :
    (∃ value input, r = .ok (value, input) ∧ s.place = .after value) ∨ r = .error .parseError ∨
      r = .error .outOfRange := by
  have hmember : ∀ {fields frames key input}, parseMember strtod fields frames key input = .inr r →
      r = .error .parseError := by
    intro fields frames key input hr
    unfold parseMember at hr
    split at hr
    · cases hr
    · exact (Sum.inr.inj hr).symm
  obtain ⟨place, frames, input⟩ := s
  cases place with
  | before last =>
    cases last with
    | beginObject =>
      simp only [saxStep] at h
      split at h
      · cases h
      · exact .inr (.inl (hmember h))
      · exact .inr (.inl (Sum.inr.inj h).symm)
    | beginArray =>
      simp only [saxStep] at h
      split at h <;> cases h
    | valueFloat x =>
      cases x with
      | none => exact .inr (.inr (Sum.inr.inj h).symm)
      | some x => cases h
    | literalTrue | literalFalse | literalNull | valueString | valueUnsigned | valueInteger => cases h
    | endArray | endObject | nameSeparator | valueSeparator | parseError | endOfInput =>
      exact .inr (.inl (Sum.inr.inj h).symm)
  | after value =>
    match frames with
    | [] => exact .inl ⟨value, input, (Sum.inr.inj h).symm, rfl⟩
    | .array items :: frames =>
      simp only [saxStep] at h
      split at h
      · cases h
      · cases h
      · exact .inr (.inl (Sum.inr.inj h).symm)
    | .object fields key :: frames =>
      simp only [saxStep] at h
      split at h
      · split at h
        · exact .inr (.inl (hmember h))
        · exact .inr (.inl (Sum.inr.inj h).symm)
      · cases h
      · exact .inr (.inl (Sum.inr.inj h).symm)

variable (strtod) in
theorem parse_result (input : Bytes) : (∃ js, parse strtod input = .ok js ∧ Valid True js) ∨
    parse strtod input = .error .parseError ∨ parse strtod input = .error .outOfRange := by
  unfold parse
  cases skipBom input with
  | none => exact .inr (.inl rfl)
  | some input =>
    simp only
    obtain ⟨r, hr⟩ := Option.isSome_iff_exists.1 (isSome_parse strtod (scan strtod input).1
      (scan strtod input).2)
    rw [hr, Option.getD_some]
    have hresult : (∃ js rest, r = .ok (js, rest) ∧ Valid True js) ∨ r = .error .parseError ∨
        r = .error .outOfRange := by
      have hstart : State.Ok ⟨.before (scan strtod input).1, [], (scan strtod input).2⟩ := by
        exact ⟨ok_scan (show scan strtod input = (_, _) from rfl), by simp⟩
      refine loop_invariant (Q := fun r => (∃ js rest, r = .ok (js, rest) ∧ Valid True js) ∨
        r = .error .parseError ∨ r = .error .outOfRange) (fun s t => ok_saxStep) (fun s b hs hb => ?_) hstart hr
      refine (exit_saxStep hb).imp_left ?_
      rintro ⟨value, rest, hb, hplace⟩
      have hvalue := hs.place
      rw [hplace] at hvalue
      exact ⟨value, rest, hb, hvalue⟩
    rcases hresult with ⟨js, rest, rfl, hvalid⟩ | rfl | rfl
    · by_cases hend : (scan strtod rest).1 = .endOfInput
      · exact .inl ⟨js, if_pos hend, hvalid⟩
      · exact .inr (.inl (if_neg hend))
    · exact .inr (.inl rfl)
    · exact .inr (.inr rfl)

theorem ofBytes_utf8 (s : String) : ofBytes (utf8 s.toList) = s := by
  have hbytes : (utf8 s.toList).toByteArray = s.toByteArray := by
    rw [← String.ofList_toList (s := s), String.toByteArray_ofList, String.toList_ofList]
    rfl
  have hvalid : (utf8 s.toList).toByteArray.IsValidUTF8 := hbytes ▸ s.isValidUTF8
  rw [ofBytes, dif_pos hvalid]
  exact String.toByteArray_inj.1 hbytes

/-- A string of the lexer is valid UTF-8, so that the value gets these bytes and no others. -/
theorem utf8_ofBytes {input rest s : Bytes} (h : scan strtod input = (.valueString s, rest)) :
    s.toByteArray.IsValidUTF8 ∧ utf8 (ofBytes s).toList = s := by
  obtain ⟨cs, rfl⟩ := valid_scan strtod h
  have hcs : utf8 cs = utf8 (String.ofList cs).toList := by rw [String.toList_ofList]
  have hvalid : (utf8 cs).toByteArray.IsValidUTF8 := by
    rw [show (utf8 cs).toByteArray = (String.ofList cs).toByteArray from (String.toByteArray_ofList ..).symm]
    exact String.isValidUTF8 _
  rw [hcs, ofBytes_utf8, ← hcs]
  exact ⟨hvalid, rfl⟩

variable (strtod) in
/-- **Every text is dealt with**: the loop ends, the strings on the way are valid UTF-8, and there is a well-formed
value, or an exception of these two. -/
theorem parse_cases (input : Bytes) :
    (∀ t rest, (loop (saxStep strtod) (2 * rest.length + 4) ⟨.before t, [], rest⟩).isSome) ∧
      (∀ l s rest, scan strtod l = (.valueString s, rest) →
        s.toByteArray.IsValidUTF8 ∧ utf8 (ofBytes s).toList = s) ∧
      ((∃ js, parse strtod input = .ok js ∧ Valid True js) ∨ parse strtod input = .error .parseError ∨
        parse strtod input = .error .outOfRange) :=
  ⟨isSome_parse strtod, fun _ _ _ h => utf8_ofBytes h, parse_result strtod input⟩

/-! ## What is written is read back -/

theorem textItems_cons (js : Json) (items : List Json) :
    textItems (js :: items) = text js ++ if items = [] then [] else ',' :: textItems items := by
  cases items <;> simp [textItems]

theorem textFields_cons (key : String) (js : Json) (fields : List (String × Json)) :
    textFields ((key, js) :: fields) =
      quote key ++ ':' :: (text js ++ if fields = [] then [] else ',' :: textFields fields) := by
  cases fields <;> simp [textFields]

theorem not_keyLt {a b : String} (h : keyLt a b) : ¬ keyLt b a ∧ b ≠ a := by
  refine ⟨fun h' => List.lt_irrefl _ (List.lt_trans h h'), ?_⟩
  rintro rfl
  exact List.lt_irrefl _ h

/-- A key after all others goes to the end. -/
theorem insertField_of_forall {key : String} {value : Json} {fields : List (String × Json)}
    (h : ∀ f ∈ fields, keyLt f.1 key) : insertField key value fields = fields ++ [(key, value)] := by
  induction fields with
  | nil => rfl
  | cons f fields ih =>
    obtain ⟨hlt, hne⟩ := not_keyLt (h f (List.mem_cons_self ..))
    rw [insertField, if_neg hlt, if_neg hne, ih fun g hg => h g (List.mem_cons_of_mem _ hg), List.cons_append]

variable (strtod) in
/-- From the first token of the value the loop comes to its end, whatever is open around it. -/
def ReadsBack (js : Json) : Prop :=
  ∀ frames input, EndsNumber input → ∃ t rest, scan strtod (utf8 js.text ++ input) = (t, rest) ∧ t ≠ .endArray ∧
    Leads (saxStep strtod) ⟨.before t, frames, rest⟩ ⟨.after js, frames, input⟩

theorem endsNumber_cons {b : Byte} (h : b = 0x2C ∨ b = 0x5D ∨ b = 0x7D) (input : Bytes) :
    EndsNumber (b :: input) := by
  rintro c hc
  obtain rfl : b = c := by simpa using hc
  rcases h with rfl | rfl | rfl <;> decide

/-- What comes after an item or a member, up to the bracket that closes it. -/
theorem endsNumber_tail {b : Byte} (h : b = 0x5D ∨ b = 0x7D) (empty : Prop) [Decidable empty] (cs : List Char)
    (input : Bytes) : EndsNumber (utf8 (if empty then [] else ',' :: cs) ++ b :: input) := by
  split_ifs
  · exact endsNumber_cons (.inr h) input
  · exact endsNumber_cons (.inl rfl) _

theorem utf8_comma (cs : List Char) : utf8 (',' :: cs) = 0x2C :: utf8 cs := rfl

theorem saxStep_nextItem {value : Json} {items : List Json} {frames : List Frame} {input rest : Bytes} {t : Token}
    (h : scan strtod input = (t, rest)) : saxStep strtod ⟨.after value, .array items :: frames, 0x2C :: input⟩ =
      .inl ⟨.before t, .array (items ++ [value]) :: frames, rest⟩ := by
  have hcomma : scan strtod (0x2C :: input) = (.valueSeparator, input) := rfl
  simp only [saxStep, hcomma, h]

theorem leads_items {items : List Json} (h : ∀ js ∈ items, ReadsBack strtod js) (acc : List Json) (value : Json)
    (frames : List Frame) (input : Bytes) :
    Leads (saxStep strtod)
      ⟨.after value, .array acc :: frames,
        utf8 (if items = [] then [] else ',' :: textItems items) ++ 0x5D :: input⟩
      ⟨.after (.arr (acc ++ value :: items)), frames, input⟩ := by
  induction items generalizing acc value with
  | nil => exact .head rfl (.refl _)
  | cons js items ih =>
    obtain ⟨hjs, hitems⟩ := List.forall_mem_cons.1 h
    obtain ⟨t, rest, hscan, -, hleads⟩ := hjs (.array (acc ++ [value]) :: frames)
      (utf8 (if items = [] then [] else ',' :: textItems items) ++ 0x5D :: input) (endsNumber_tail (.inl rfl) _ _ _)
    have hih := ih hitems (acc ++ [value]) js
    rw [List.append_assoc, List.singleton_append] at hih
    refine .head ?_ (hleads.trans hih)
    rw [if_neg (List.cons_ne_nil _ _), utf8_comma, textItems_cons, utf8_append, List.cons_append, List.append_assoc]
    exact saxStep_nextItem hscan

/-- The key, the separator and the first token of the value of a member. -/
theorem parseMember_text {js : Json} {cs : List Char} {input rest : Bytes} {t : Token}
    (h : scan strtod (utf8 js.text ++ (utf8 cs ++ input)) = (t, rest)) (key : String)
    (fields : List (String × Json)) (frames : List Frame) :
    ∃ input', scan strtod (utf8 (quote key ++ ':' :: (js.text ++ cs)) ++ input) =
        (.valueString (utf8 key.toList), input') ∧
      parseMember strtod fields frames (utf8 key.toList) input' =
        .inl ⟨.before t, .object fields key :: frames, rest⟩ := by
  have hcolon : scan strtod (utf8 (':' :: (js.text ++ cs)) ++ input) =
      (.nameSeparator, utf8 (js.text ++ cs) ++ input) := rfl
  refine ⟨utf8 (':' :: (js.text ++ cs)) ++ input, ?_, ?_⟩
  · rw [utf8_append, List.append_assoc, scan_quote]
  · simp only [parseMember, hcolon]
    rw [utf8_append, List.append_assoc, h, ofBytes_utf8]

theorem leads_fields {fields : List (String × Json)} (h : ∀ f ∈ fields, ReadsBack strtod f.2)
    (acc : List (String × Json)) (key : String) (value : Json)
    (hkeys : (acc ++ (key, value) :: fields).Pairwise fun f g => keyLt f.1 g.1) (frames : List Frame)
    (input : Bytes) :
    Leads (saxStep strtod)
      ⟨.after value, .object acc key :: frames,
        utf8 (if fields = [] then [] else ',' :: textFields fields) ++ 0x7D :: input⟩
      ⟨.after (.obj (acc ++ (key, value) :: fields)), frames, input⟩ := by
  have hinsert : insertField key value acc = acc ++ [(key, value)] :=
    insertField_of_forall fun f hf => (List.pairwise_append.1 hkeys).2.2 f hf (key, value) (List.mem_cons_self ..)
  induction fields generalizing acc key value with
  | nil =>
    refine .head ?_ (.refl _)
    show State.done (.obj (insertField key value acc)) frames input = _
    rw [hinsert]
    rfl
  | cons f fields ih =>
    obtain ⟨key', js⟩ := f
    obtain ⟨hjs, hfields⟩ := List.forall_mem_cons.1 h
    obtain ⟨t, rest, hscan, -, hleads⟩ := hjs (.object (acc ++ [(key, value)]) key' :: frames)
      (utf8 (if fields = [] then [] else ',' :: textFields fields) ++ 0x7D :: input)
      (endsNumber_tail (.inr rfl) _ _ _)
    have hkeys' : ((acc ++ [(key, value)]) ++ (key', js) :: fields).Pairwise fun f g => keyLt f.1 g.1 := by
      rwa [List.append_assoc, List.singleton_append]
    have hih := ih hfields (acc ++ [(key, value)]) key' js hkeys'
      (insertField_of_forall fun f hf =>
        (List.pairwise_append.1 hkeys').2.2 f hf (key', js) (List.mem_cons_self ..))
    rw [List.append_assoc, List.singleton_append] at hih
    refine .head ?_ (hleads.trans hih)
    obtain ⟨input', hkey, hmember⟩ := parseMember_text hscan key' (acc ++ [(key, value)]) frames
    rw [if_neg (List.cons_ne_nil _ _), utf8_comma, textFields_cons, List.cons_append]
    have hcomma : ∀ l, scan strtod (0x2C :: l) = (.valueSeparator, l) := fun _ => rfl
    simp only [saxStep, hcomma, hkey, hinsert, hmember]

variable (strtod) in
/-- Every value without doubles is read back. -/
theorem readsBack_of_valid {js : Json} (h : Valid False js) : ReadsBack strtod js := by
  induction h with
  | null => exact fun frames input _ => ⟨_, _, scan_null strtod input, by simp, .head rfl (.refl _)⟩
  | bool b =>
    intro frames input _
    cases b with
    | true => exact ⟨_, _, scan_true strtod input, by simp, .head rfl (.refl _)⟩
    | false => exact ⟨_, _, scan_false strtod input, by simp, .head rfl (.refl _)⟩
  | @num n hn =>
    intro frames input hinput
    refine ⟨_, _, scan_toString strtod hn hinput, ?_, .head ?_ (.refl _)⟩
    · unfold integerToken
      split <;> simp
    · unfold integerToken
      split_ifs with hpos
      · show State.done (.num n.toNat) frames input = _
        rw [Int.toNat_of_nonneg hpos]
        rfl
      · rfl
  | real x hfalse => exact hfalse.elim
  | str s =>
    intro frames input _
    refine ⟨_, _, scan_quote strtod s input, by simp, .head ?_ (.refl _)⟩
    show State.done (.str (ofBytes _)) frames input = _
    rw [ofBytes_utf8]
    rfl
  | @arr items _ ih =>
    intro frames input _
    refine ⟨.beginArray, utf8 (textItems items ++ [']']) ++ input, rfl, by simp, ?_⟩
    cases items with
    | nil => exact .head rfl (.refl _)
    | cons js items =>
      obtain ⟨hjs, hitems⟩ := List.forall_mem_cons.1 ih
      obtain ⟨t, rest, hscan, hne, hleads⟩ := hjs (.array [] :: frames)
        (utf8 (if items = [] then [] else ',' :: textItems items) ++ 0x5D :: input)
        (endsNumber_tail (.inl rfl) _ _ _)
      refine .head ?_ (hleads.trans (leads_items hitems [] js frames input))
      have htext : utf8 (textItems (js :: items) ++ [']']) ++ input = utf8 js.text ++
          (utf8 (if items = [] then [] else ',' :: textItems items) ++ 0x5D :: input) := by
        rw [textItems_cons, utf8_append, utf8_append, List.append_assoc, List.append_assoc]
        rfl
      simp only [saxStep, htext, hscan]
  | @obj fields hkeys _ ih =>
    intro frames input _
    refine ⟨.beginObject, utf8 (textFields fields ++ ['}']) ++ input, rfl, by simp, ?_⟩
    cases fields with
    | nil => exact .head rfl (.refl _)
    | cons f fields =>
      obtain ⟨key, js⟩ := f
      obtain ⟨hjs, hfields⟩ := List.forall_mem_cons.1 ih
      obtain ⟨t, rest, hscan, -, hleads⟩ := hjs (.object [] key :: frames)
        (utf8 (if fields = [] then [] else ',' :: textFields fields) ++ 0x7D :: input)
        (endsNumber_tail (.inr rfl) _ _ _)
      refine .head ?_ (hleads.trans (leads_fields hfields [] key js hkeys frames input))
      obtain ⟨input', hkey, hmember⟩ := parseMember_text hscan key [] frames
      have htext : utf8 (textFields ((key, js) :: fields) ++ ['}']) ++ input =
          utf8 (quote key ++ ':' :: (text js ++ if fields = [] then [] else ',' :: textFields fields)) ++
            0x7D :: input := by
        rw [textFields_cons, utf8_append, List.append_assoc]
        rfl
      simp only [saxStep, htext, hkey, hmember]

/-- The text of a value starts no byte order mark. -/
theorem skipBom_dump {js : Json} (h : Valid False js) : skipBom js.dump = some js.dump := by
  obtain ⟨t, rest, hscan, -, hleads⟩ := readsBack_of_valid (fun _ => none) h [] [] (by simp [EndsNumber])
  rw [List.append_nil] at hscan
  have hne : t ≠ .parseError := by
    rintro rfl
    rcases Relation.ReflTransGen.cases_head hleads with heq | ⟨s, hs, -⟩
    · cases congrArg State.place heq
    · cases hs
  have hhead : ∀ l, js.dump ≠ 0xEF :: l := by
    intro l heq
    rw [dump] at heq
    rw [heq] at hscan
    exact hne (Prod.mk.inj hscan).1.symm
  unfold skipBom
  split
  case h_1 heq => exact absurd heq (hhead _)
  case h_2 heq => exact absurd heq (hhead _)
  case h_3 => rfl

/-! ### No control character is written -/

theorem ge_hexDigit {n : ℕ} (h : n < 16) : 0x20 ≤ (hexDigit n).toNat := by
  interval_cases n <;> decide

theorem ge_of_mem_escapeChar {c d : Char} (h : d ∈ escapeChar c) : 0x20 ≤ d.toNat := by
  unfold escapeChar at h
  iterate 7
    split at h
    · rcases List.mem_pair.1 h with rfl | rfl <;> decide
  split at h
  case isTrue hctrl =>
    simp only [List.mem_cons, List.not_mem_nil, or_false] at h
    rcases h with rfl | rfl | rfl | rfl | rfl | rfl
    iterate 4
      · decide
    · exact ge_hexDigit (by omega)
    · exact ge_hexDigit (by omega)
  case isFalse hctrl =>
    rw [List.mem_singleton.1 h]
    omega

theorem ge_of_mem_quote {s : String} {c : Char} (h : c ∈ quote s) : 0x20 ≤ c.toNat := by
  rw [quote, List.mem_append, List.mem_cons, List.mem_flatMap, List.mem_singleton] at h
  rcases h with (rfl | ⟨d, -, hd⟩) | rfl
  · decide
  · exact ge_of_mem_escapeChar hd
  · decide

theorem ge_of_mem_textItems {items : List Json} (h : ∀ js ∈ items, ∀ c ∈ js.text, 0x20 ≤ c.toNat) {c : Char}
    (hc : c ∈ textItems items) : 0x20 ≤ c.toNat := by
  induction items with
  | nil => cases hc
  | cons js items ih =>
    obtain ⟨hjs, hitems⟩ := List.forall_mem_cons.1 h
    rw [textItems_cons, List.mem_append] at hc
    rcases hc with hc | hc
    · exact hjs c hc
    · split_ifs at hc
      · cases hc
      · rcases List.mem_cons.1 hc with rfl | hc
        · decide
        · exact ih hitems hc

theorem ge_of_mem_textFields {fields : List (String × Json)} (h : ∀ f ∈ fields, ∀ c ∈ f.2.text, 0x20 ≤ c.toNat)
    {c : Char} (hc : c ∈ textFields fields) : 0x20 ≤ c.toNat := by
  induction fields with
  | nil => cases hc
  | cons f fields ih =>
    obtain ⟨hjs, hfields⟩ := List.forall_mem_cons.1 h
    rw [textFields_cons, List.mem_append, List.mem_cons, List.mem_append] at hc
    rcases hc with hc | rfl | hc | hc
    · exact ge_of_mem_quote hc
    · decide
    · exact hjs c hc
    · split_ifs at hc
      · cases hc
      · rcases List.mem_cons.1 hc with rfl | hc
        · decide
        · exact ih hfields hc

theorem ge_of_mem_text {js : Json} (h : Valid False js) : ∀ c ∈ js.text, 0x20 ≤ c.toNat := by
  have hbracket : ∀ {a b : Char} {l : List Char}, 0x20 ≤ a.toNat → 0x20 ≤ b.toNat → (∀ c ∈ l, 0x20 ≤ c.toNat) →
      ∀ c ∈ a :: l ++ [b], 0x20 ≤ c.toNat := by
    intro a b l ha hb hl c hc
    rw [List.mem_append, List.mem_cons, List.mem_singleton] at hc
    rcases hc with (rfl | hc) | rfl
    · exact ha
    · exact hl c hc
    · exact hb
  have hall : ∀ l : List Char, (l.all fun c => 0x20 ≤ c.toNat) = true → ∀ c ∈ l, 0x20 ≤ c.toNat :=
    fun l hl c hc => of_decide_eq_true (List.all_eq_true.1 hl c hc)
  induction h with
  | null => exact hall _ rfl
  | bool b => cases b <;> exact hall _ rfl
  | num =>
    intro c hc
    rcases isDigit_of_mem_toString hc with hdigit | rfl
    · simp only [Char.isDigit, Bool.and_eq_true, decide_eq_true_eq] at hdigit
      have hge : 48 ≤ c.toNat := hdigit.1
      omega
    · decide
  | real x hfalse => exact hfalse.elim
  | str s => exact fun c => ge_of_mem_quote
  | arr _ ih => exact hbracket (by decide) (by decide) fun c => ge_of_mem_textItems ih
  | obj _ _ ih => exact hbracket (by decide) (by decide) fun c => ge_of_mem_textFields ih

theorem ge_of_mem_utf8 {cs : List Char} (h : ∀ c ∈ cs, 0x20 ≤ c.toNat) {b : Byte} (hb : b ∈ utf8 cs) :
    0x20 ≤ b.toNat := by
  obtain ⟨c, hc, hb⟩ := List.mem_flatMap.1 hb
  have hge := h c hc
  have hval : c.val.toNat = c.toNat := rfl
  have htail : ∀ x y, 0x20 ≤ y → y < 0x100 → x < 0x100 - y → 0x20 ≤ (UInt8.ofNat (x + y)).toNat := by
    intro x y hy hlt hx
    rw [toNat_ofNat (by omega)]
    omega
  rw [String.utf8EncodeChar, hval] at hb
  split_ifs at hb
  · rw [List.mem_singleton.1 hb, toNat_ofNat (by omega)]
    exact hge
  all_goals
    simp only [List.mem_cons, List.not_mem_nil, or_false] at hb
  · rcases hb with rfl | rfl
    all_goals exact htail _ _ (by decide) (by decide) (by omega)
  · rcases hb with rfl | rfl | rfl
    all_goals exact htail _ _ (by decide) (by decide) (by omega)
  · rcases hb with rfl | rfl | rfl | rfl
    all_goals exact htail _ _ (by decide) (by decide) (by omega)

variable (strtod) in
/-- **The round trip**: what `dump` writes is parsed to the value it was written for. -/
theorem parse_dump {js : Json} (h : Valid False js) : parse strtod js.dump = .ok js := by
  obtain ⟨t, rest, hscan, -, hleads⟩ := readsBack_of_valid strtod h [] [] (by simp [EndsNumber])
  rw [List.append_nil, ← dump] at hscan
  have hloop := loop_eq_of_leads hleads rfl (isSome_parse strtod t rest)
  simp only [parse, skipBom_dump h, hscan, hloop, Option.getD_some]
  rfl

/-- The library does what is asked of it, for every value the program stores. -/
theorem faithful_nlohmann {js : Json} (h : Valid False js) : (nlohmann strtod).Faithful js where
  noCR hmem := absurd (ge_of_mem_utf8 (ge_of_mem_text h) hmem) (by decide)
  noLF hmem := absurd (ge_of_mem_utf8 (ge_of_mem_text h) hmem) (by decide)
  parse_dump := parse_dump strtod h

/-! ## What was read is written and read again -/

/-- There is no double in the value. -/
inductive NoReal : Json → Prop
  | null : NoReal .null
  | bool (b : Bool) : NoReal (.bool b)
  | num (n : ℤ) : NoReal (.num n)
  | str (s : String) : NoReal (.str s)
  | arr {items : List Json} (h : ∀ js ∈ items, NoReal js) : NoReal (.arr items)
  | obj {fields : List (String × Json)} (h : ∀ f ∈ fields, NoReal f.2) : NoReal (.obj fields)

theorem Valid.of_noReal {js : Json} (h : Valid True js) (hreal : NoReal js) : Valid False js := by
  induction h with
  | null => exact .null
  | bool b => exact .bool b
  | num h => exact .num h
  | real x => cases hreal
  | str s => exact .str s
  | arr _ ih =>
    cases hreal with
    | arr hreal => exact .arr fun js hjs => ih js hjs (hreal js hjs)
  | obj hkeys _ ih =>
    cases hreal with
    | obj hreal => exact .obj hkeys fun f hf => ih f hf (hreal f hf)

variable (strtod) in
/-- **Whatever was read is written in one line and read as the same value**, unless it holds a double. -/
theorem faithful_of_parse {input : Bytes} {js : Json} (h : parse strtod input = .ok js) (hreal : NoReal js) :
    (nlohmann strtod).Faithful js := by
  rcases parse_result strtod input with ⟨js', hjs', hvalid⟩ | herror | herror
  · obtain rfl := Except.ok.inj (hjs'.symm.trans h)
    exact faithful_nlohmann (hvalid.of_noReal hreal)
  · rw [herror] at h
    cases h
  · rw [herror] at h
    cases h

theorem faithful_of_parse_spaced : (nlohmann fun _ => none).Faithful (.arr [.num 1, .bool true]) :=
  faithful_of_parse (fun _ => none) (show parse _ (utf8 " [ 1 , true ]".toList) = _ from rfl)
    (.arr (by simp [NoReal.num, NoReal.bool]))

end Chatroom.Json
