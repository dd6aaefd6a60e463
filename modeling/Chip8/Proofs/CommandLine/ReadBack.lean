import Mathlib.Data.List.Nodup
import Chip8.Proofs.CommandLine.Spelling

/-!
# Command lines are read back

* `Scan.entryOf?` — what a scan was told of a field
* `exists_words_of_spells` — however an entry is written, its words tell it and nothing else
* `exists_words_of_row` — so a row of entries tells each of them, in any order
* `finish_of_settle` — a scan that was told what arguments ask for ends with those arguments
* `read_back` — every command line that asks for some arguments is read as these

What a scan has read is not what it was told: the last value or name may be pending. What counts is
the scan it settles to.
-/

namespace Chip8.CommandLine

namespace Scan

variable {scan scan' t : Scan} {e : Entry} {field : Field} {setting : Setting} {flag : Flag}
variable {n : Nat}

/-! ## What a scan was told -/

/-- The scan that is told an entry. -/
def take (scan : Scan) : Entry → Scan
  | .program text => { scan with program := some text }
  | .setting s n => scan.put n s
  | .flag .mute => { scan with mute := true }
  | .flag .shiftsVY => { scan with shiftsVY := true }
  | .flag .advancesIndex => { scan with advancesIndex := true }

/-- The value that a scan was told for a setting. -/
def told? (scan : Scan) : Setting → Option Nat
  | .ips => scan.ips.map (·.toNat)
  | .scale => scan.scale.map (·.toNat)
  | .seed => scan.seed.map (·.toNat)

/-- What a scan was told of a field. -/
def entryOf? (scan : Scan) : Field → Option Entry
  | .program => scan.program.map .program
  | .setting s => (scan.told? s).map (.setting s)
  | .flag f => if scan.isRaised f then some (.flag f) else none

theorem pending_take (scan : Scan) (e : Entry) : (scan.take e).pending = scan.pending := by
  rcases e with text | ⟨⟨⟩, n⟩ | ⟨⟨⟩⟩ <;> rfl

theorem entryOf?_take (scan : Scan) (valid : e.IsValid) :
    (scan.take e).entryOf? e.field = some e := by
  cases e with
  | program text => rfl
  | setting s n =>
    have told : (scan.put n s).told? s = some n := by
      cases s with
      | ips => exact congrArg some (UInt32.toNat_ofNat_of_lt (Nat.lt_succ_of_le valid))
      | scale => exact congrArg some (UInt8.toNat_ofNat_of_lt (Nat.lt_succ_of_le valid))
      | seed => exact congrArg some (UInt64.toNat_ofNat_of_lt (Nat.lt_succ_of_le valid))
    exact congrArg (Option.map (Entry.setting s)) told
  | flag f => cases f <;> rfl

/-- Of other fields nothing is told. -/
theorem entryOf?_take_of_ne (scan : Scan) (apart : field ≠ e.field) :
    (scan.take e).entryOf? field = scan.entryOf? field := by
  rcases e with text | ⟨⟨⟩, n⟩ | ⟨⟨⟩⟩ <;> rcases field with _ | ⟨⟨⟩⟩ | ⟨⟨⟩⟩ <;>
    first | rfl | exact absurd rfl apart

theorem program_of_free (free : t.entryOf? .program = none) : t.program = none :=
  Option.map_eq_none_iff.mp free

theorem has_of_free (free : t.entryOf? (.setting setting) = none) : t.has setting = false := by
  have untold : t.told? setting = none := Option.map_eq_none_iff.mp free
  cases setting <;> simpa [told?, has] using untold

theorem isRaised_of_free (free : t.entryOf? (.flag flag) = none) : t.isRaised flag = false := by
  simpa [entryOf?] using free

/-! ## Settling -/

/-- The ways a scan settles. -/
theorem settle_cases (settled : scan.settle = .ok t) :
    (scan.pending = .nothing ∧ t = scan) ∨
    (∃ text, scan.pending = .program text ∧
      t = { scan with program := some text, pending := .nothing }) ∨
    ∃ s value n, scan.pending = .setting s (some value) ∧
      t = put { scan with pending := .nothing } n s := by
  unfold settle at settled
  split at settled
  · next pending =>
    cases settled
    exact .inl ⟨pending, rfl⟩
  · next text pending =>
    split at settled
    · cases settled
    · cases settled
      exact .inr (.inl ⟨text, pending, rfl⟩)
  · cases settled
  · next s value pending =>
    unfold make at settled
    split at settled
    · cases settled
    · split at settled
      · next n _ =>
        cases settled
        exact .inr (.inr ⟨s, value, n, pending, rfl⟩)
      · cases settled

theorem pending_of_settle (settled : scan.settle = .ok t) : t.pending = .nothing := by
  rcases settle_cases settled with ⟨pending, rfl⟩ | ⟨text, -, rfl⟩ | ⟨s, value, n, -, rfl⟩
  · exact pending
  · rfl
  · exact pending_take _ (.setting s n)

/-- A name that is pending counts as one. -/
theorem namesProgram_of_settle (settled : scan.settle = .ok t) :
    scan.namesProgram = t.program.isSome := by
  rcases settle_cases settled with
    ⟨pending, rfl⟩ | ⟨text, pending, rfl⟩ | ⟨s, value, n, pending, rfl⟩
  · simp [namesProgram, pending]
  · simp [namesProgram, pending]
  · cases s <;> simp [namesProgram, pending, put]

theorem settle_of_pending (nothing : t.pending = .nothing) : t.settle = .ok t := by
  rw [settle, nothing]

theorem make_of_free (free : t.entryOf? (.setting setting) = none) (fits : n ≤ setting.limit) :
    t.make setting (Nat.toDigits 10 n) = .ok (t.take (.setting setting n)) := by
  have value : value? (Nat.toDigits 10 n) setting = some n := by
    cases setting <;> exact number_toDigits _ fits
  rw [make, has_of_free free, value]
  rfl

theorem raise_of_free (free : t.entryOf? (.flag flag) = none) :
    t.raise flag = .ok (t.take (.flag flag)) := by
  simp only [raise, isRaised_of_free free, Bool.false_eq_true, if_false]
  cases flag <;> rfl

/-- A value in a word of its own. -/
theorem settle_value (nothing : t.pending = .nothing) (free : t.entryOf? (.setting setting) = none)
    (fits : n ≤ setting.limit) :
    settle { t with pending := .setting setting (some (Nat.toDigits 10 n)) } =
      .ok (t.take (.setting setting n)) := by
  have same : { t with pending := .nothing } = t := by rw [← nothing]
  show make { t with pending := .nothing } setting _ = _
  rw [same, make_of_free free fits]

theorem settle_program {text : String} (nothing : t.pending = .nothing) (some_text : text ≠ "") :
    settle { t with pending := .program text } = .ok (t.take (.program text)) := by
  have nonempty : text.isEmpty = false := by simpa using some_text
  simp only [settle, nonempty, Bool.false_eq_true, if_false, take, nothing]

section Settled

variable (settled : scan.settle = .ok t)
include settled

theorem accept_value (value : List Char) :
    scan.accept (some value) (.setting setting) = t.make setting value := by
  rw [accept, settled]
  rfl

theorem accept_setting :
    scan.accept none (.setting setting) = .ok { t with pending := .setting setting none } := by
  rw [accept, settled]
  rfl

theorem accept_flag : scan.accept none (.flag flag) = t.raise flag := by
  rw [accept, settled]
  rfl

theorem name_of_free (free : t.entryOf? .program = none) (text : String) :
    scan.name text = .ok { t with pending := .program text } := by
  have unnamed : scan.namesProgram = false := by
    rw [namesProgram_of_settle settled, program_of_free free]
    rfl
  rw [name, unnamed, settled]
  rfl

/-- No value is due, so a name is taken for one, and so is a number. -/
theorem plain_of_free (free : t.entryOf? .program = none) (text : String) :
    scan.plain text = .ok { t with pending := .program text } := by
  unfold plain
  split
  · next due => simp [settle, due] at settled
  · exact name_of_free settled free text

end Settled

/-! ## Words -/

section Words

variable {text : String} {texts : List String} {cs value : List Char} {letter : Char}

theorem words_long {name : List Char} {value : Option (List Char)}
    (shape : Shape.ofChars text.toList = .long name value)
    (taken : scan.long name value = .ok scan') :
    scan.words false (text :: texts) = scan'.words false texts := by
  simp only [words, shape, taken]
  rfl

theorem words_short (shape : Shape.ofChars text.toList = .short letter cs)
    (taken : scan.short letter cs = .ok scan') :
    scan.words false (text :: texts) = scan'.words false texts := by
  simp only [words, shape, taken]
  rfl

theorem words_plain (plain : IsPlain text) (taken : scan.plain text = .ok scan') :
    scan.words false (text :: texts) = scan'.words false texts := by
  simp only [words, shape_plain plain, taken]
  rfl

/-- A value that is due is not looked at yet. -/
theorem words_due (n : Nat) :
    words { t with pending := .setting setting none } false (toString n :: texts) =
      words { t with pending := .setting setting (some (Nat.toDigits 10 n)) } false texts := by
  refine words_plain (isPlain_toString n) ?_
  rw [plain, toList_toString]

theorem long_setting (scan : Scan) (setting : Setting) (value : Option (List Char)) :
    scan.long setting.name.toList value = scan.accept value (.setting setting) := by
  cases setting <;> rfl

theorem long_flag (scan : Scan) (flag : Flag) :
    scan.long flag.name.toList none = scan.accept none (.flag flag) := by
  cases flag <;> rfl

theorem short_setting (scan : Scan) (named : setting.letter? = some letter) (cs : List Char) :
    scan.short letter cs = scan.accept (attached cs) (.setting setting) := by
  cases setting <;> cases named <;> rfl

theorem shape_letter_of_setting (named : setting.letter? = some letter) (cs : List Char) :
    Shape.ofChars ('-' :: letter :: cs) = .short letter cs := by
  refine shape_letter ?_
  cases setting <;> cases named <;> decide

variable (settled : scan.settle = .ok t)
include settled

theorem words_name (setting : Setting) :
    scan.words false (("--" ++ setting.name) :: texts) =
      words { t with pending := .setting setting none } false texts := by
  have shape : Shape.ofChars ("--" ++ setting.name).toList = .long setting.name.toList none := by
    cases setting <;> rfl
  refine words_long shape ?_
  rw [long_setting, accept_setting settled]

theorem words_nameValue (made : t.make setting value = .ok scan') :
    scan.words false (("--" ++ setting.name ++ "=" ++ String.ofList value) :: texts) =
      scan'.words false texts := by
  have chars : ("--" ++ setting.name ++ "=" ++ String.ofList value).toList =
      '-' :: '-' :: (setting.name.toList ++ '=' :: value) := by simp
  have pure : '=' ∉ setting.name.toList := by cases setting <;> decide
  refine words_long (chars ▸ shape_nameValue pure) ?_
  rw [long_setting, accept_value settled, made]

theorem words_flag (raised : t.raise flag = .ok scan') :
    scan.words false (("--" ++ flag.name) :: texts) = scan'.words false texts := by
  have shape : Shape.ofChars ("--" ++ flag.name).toList = .long flag.name.toList none := by
    cases flag <;> rfl
  refine words_long shape ?_
  rw [long_flag, accept_flag settled, raised]

/-- Behind the end of the options, whatever it looks like, a word is a name. -/
theorem words_behind (free : t.entryOf? .program = none) (text : String) :
    scan.words false ["--", text] = .ok { t with pending := .program text } := by
  show scan.words true [text] = _
  rw [words, name_of_free settled free]
  rfl

theorem words_letter (named : setting.letter? = some letter) :
    scan.words false (("-" ++ letter.toString) :: texts) =
      words { t with pending := .setting setting none } false texts := by
  have chars : ("-" ++ letter.toString).toList = ['-', letter] := by simp
  refine words_short (chars ▸ shape_letter_of_setting named []) ?_
  rw [short_setting scan named]
  exact accept_setting settled

theorem words_letterValue (named : setting.letter? = some letter)
    (chars : text.toList = '-' :: letter :: cs) (given : attached cs = some value)
    (made : t.make setting value = .ok scan') :
    scan.words false (text :: texts) = scan'.words false texts := by
  refine words_short (chars ▸ shape_letter_of_setting named cs) ?_
  rw [short_setting scan named, given, accept_value settled, made]

/-! ## Entries -/

/-- However an entry is written, its words tell it and nothing else. -/
theorem exists_words_of_spells {piece : List String} (spells : Spells e piece) (valid : e.IsValid)
    (free : t.entryOf? e.field = none) :
    ∃ scan' : Scan, scan'.settle = .ok (t.take e) ∧
      ∀ texts, scan.words false (piece ++ texts) = scan'.words false texts := by
  have nothing := pending_of_settle settled
  have whole := settle_of_pending ((pending_take t e).trans nothing)
  -- a word of its own is pending behind the entry, all else was looked at
  cases spells with
  | @program text plain =>
    exact ⟨_, settle_program nothing valid, fun texts =>
      words_plain plain (plain_of_free settled free text)⟩
  | flag flag => exact ⟨_, whole, fun texts => words_flag settled (raise_of_free free)⟩
  | apart setting n =>
    exact ⟨_, settle_value nothing free valid, fun texts =>
      (words_name settled setting).trans (words_due n)⟩
  | equals setting n =>
    exact ⟨_, whole, fun texts => words_nameValue settled (make_of_free free valid)⟩
  | letterApart named n =>
    exact ⟨_, settle_value nothing free valid, fun texts =>
      (words_letter settled named).trans (words_due n)⟩
  | letterAttached named n =>
    exact ⟨_, whole, fun texts =>
      words_letterValue settled named (by simp) (attached_toDigits n) (make_of_free free valid)⟩
  | @letterEquals setting letter named n =>
    have chars : ("-" ++ letter.toString ++ "=" ++ toString n).toList =
        '-' :: letter :: '=' :: Nat.toDigits 10 n := by simp
    exact ⟨_, whole, fun texts =>
      words_letterValue settled named chars rfl (make_of_free free valid)⟩

/-- A row of entries of different fields tells each of them. -/
theorem exists_words_of_row {row : List Entry} {pieces : List (List String)}
    (spelled : List.Forall₂ Spells row pieces) (valid : ∀ e ∈ row, e.IsValid)
    (free : ∀ e ∈ row, t.entryOf? e.field = none) (apart : (row.map Entry.field).Nodup) :
    ∃ scan' t' : Scan, scan'.settle = .ok t' ∧
      (∀ texts, scan.words false (pieces.flatten ++ texts) = scan'.words false texts) ∧
      (∀ e ∈ row, t'.entryOf? e.field = some e) ∧
      ∀ field ∉ row.map Entry.field, t'.entryOf? field = t.entryOf? field := by
  induction spelled generalizing scan t with
  | nil => exact ⟨scan, t, settled, fun _ => rfl, List.forall_mem_nil _, fun _ _ => rfl⟩
  | @cons e piece row pieces spells spelled ih =>
    rw [List.map_cons, List.nodup_cons] at apart
    rw [List.forall_mem_cons] at valid free
    obtain ⟨next, settled', first⟩ := exists_words_of_spells settled spells valid.1 free.1
    -- the entry leaves the fields of the others free
    have free' : ∀ e' ∈ row, (t.take e).entryOf? e'.field = none := by
      intro e' mem
      have other : e'.field ≠ e.field := fun same => apart.1 (same ▸ List.mem_map_of_mem mem)
      rw [entryOf?_take_of_ne t other, free.2 e' mem]
    obtain ⟨last, t', settled'', others, told, kept⟩ := ih settled' valid.2 free' apart.2
    refine ⟨last, t', settled'', fun texts => ?_, ?_, fun field untold => ?_⟩
    · rw [List.flatten_cons, List.append_assoc, first, others]
    · rw [List.forall_mem_cons]
      exact ⟨(kept e.field apart.1).trans (entryOf?_take t valid.1), told⟩
    · rw [List.map_cons, List.mem_cons, not_or] at untold
      exact (kept field untold.2).trans (entryOf?_take_of_ne t untold.1)

end Words

end Scan

/-! ## Arguments -/

variable {args : Args} {fields : List Field} {field : Field} {e : Entry}

theorem Field.mem_all (field : Field) : field ∈ Field.program :: Field.options := by
  rcases field with _ | ⟨⟨⟩⟩ | ⟨⟨⟩⟩ <;> decide

namespace Args

theorem field_of_entryOf? (told : args.entryOf? field = some e) : e.field = field := by
  cases field with
  | program =>
    cases told
    rfl
  | setting s =>
    obtain ⟨n, -, rfl⟩ := Option.map_eq_some_iff.mp told
    rfl
  | flag f =>
    obtain ⟨-, ⟨⟩⟩ := Option.ite_none_right_eq_some.mp told
    rfl

theorem le_limit {setting : Setting} {n : Nat} (value : args.value? setting = some n) :
    n ≤ setting.limit := by
  cases setting with
  | ips =>
    obtain ⟨-, ⟨⟩⟩ := Option.ite_none_left_eq_some.mp value
    exact Nat.le_pred_of_lt args.ips.toNat_lt
  | scale =>
    obtain ⟨-, ⟨⟩⟩ := Option.ite_none_left_eq_some.mp value
    exact Nat.le_pred_of_lt args.scale.toNat_lt
  | seed =>
    obtain ⟨seed, -, rfl⟩ := Option.map_eq_some_iff.mp value
    exact Nat.le_pred_of_lt seed.toNat_lt

theorem isValid_of_entryOf? (named : args.program ≠ "") (told : args.entryOf? field = some e) :
    e.IsValid := by
  cases field with
  | program =>
    cases told
    exact named
  | setting s =>
    obtain ⟨n, value, rfl⟩ := Option.map_eq_some_iff.mp told
    exact le_limit value
  | flag f =>
    obtain ⟨-, ⟨⟩⟩ := Option.ite_none_right_eq_some.mp told
    trivial

/-- The entries of different fields are of different fields. -/
theorem nodup_fields (args : Args) (apart : fields.Nodup) :
    ((fields.filterMap args.entryOf?).map Entry.field).Nodup := by
  rw [List.map_filterMap]
  refine apart.filterMap fun a b field told told' => ?_
  obtain ⟨e, first, rfl⟩ := Option.map_eq_some_iff.mp told
  obtain ⟨e', second, same⟩ := Option.map_eq_some_iff.mp told'
  rw [← field_of_entryOf? first, ← field_of_entryOf? second, same]

end Args

namespace Scan

variable {scan t : Scan}

theorem told?_of_entryOf? (told : ∀ field, t.entryOf? field = args.entryOf? field)
    (setting : Setting) : t.told? setting = args.value? setting :=
  Option.map_injective (fun _ _ same => (Entry.setting.inj same).2) (told (.setting setting))

theorem isRaised_of_entryOf? (told : ∀ field, t.entryOf? field = args.entryOf? field)
    (flag : Flag) : t.isRaised flag = args.isRaised flag := by
  have same : (if t.isRaised flag then some (Entry.flag flag) else none) =
      if args.isRaised flag then some (Entry.flag flag) else none := told (.flag flag)
  cases raised : t.isRaised flag <;> cases raised' : args.isRaised flag <;> simp_all

/-- A value that is told unless it is the default. -/
theorem getD_of_map {α : Type} [DecidableEq α] {f : α → Nat} (injective : Function.Injective f)
    {told : Option α} {default value : α}
    (same : told.map f = if value = default then none else some (f value)) :
    told.getD default = value := by
  split at same
  · next unchanged => rw [Option.map_eq_none_iff.mp same, unchanged, Option.getD_none]
  · obtain ⟨other, rfl, toNat⟩ := Option.map_eq_some_iff.mp same
    rw [Option.getD_some, injective toNat]

/-- A scan that was told what some arguments ask for ends with these; what it was not told is at
its default. -/
theorem finish_of_settle (settled : scan.settle = .ok t)
    (told : ∀ field, t.entryOf? field = args.entryOf? field) : scan.finish = .ok args := by
  have program : t.program = some args.program :=
    Option.map_injective (fun _ _ => Entry.program.inj) (told .program)
  have ips : t.ips.getD 700 = args.ips :=
    getD_of_map (fun _ _ => UInt32.toNat_inj.mp) (told?_of_entryOf? told .ips)
  have scale : t.scale.getD 16 = args.scale :=
    getD_of_map (fun _ _ => UInt8.toNat_inj.mp) (told?_of_entryOf? told .scale)
  have seed : t.seed = args.seed :=
    Option.map_injective (fun _ _ => UInt64.toNat_inj.mp) (told?_of_entryOf? told .seed)
  have mute : t.mute = args.mute := isRaised_of_entryOf? told .mute
  have shiftsVY : t.shiftsVY = args.shiftsVY := isRaised_of_entryOf? told .shiftsVY
  have advancesIndex : t.advancesIndex = args.advancesIndex :=
    isRaised_of_entryOf? told .advancesIndex
  simp only [finish, settled, bind, Except.bind, program, ips, scale, seed, mute, shiftsVY,
    advancesIndex]
  rfl

theorem entryOf?_default (field : Field) : entryOf? {} field = none := by
  rcases field with _ | ⟨⟨⟩⟩ | ⟨⟨⟩⟩ <;> rfl

/-- A row that tells each of its entries and nothing else tells the fields it was made from. -/
theorem entryOf?_of_row {row : List Entry}
    (made : ∀ e, e ∈ row ↔ ∃ field ∈ fields, args.entryOf? field = some e)
    (told : ∀ e ∈ row, t.entryOf? e.field = some e)
    (kept : ∀ field ∉ row.map Entry.field, t.entryOf? field = none) :
    (∀ field ∈ fields, t.entryOf? field = args.entryOf? field) ∧
      ∀ field ∉ fields, t.entryOf? field = none := by
  -- a field that is not told has no entry in the row
  have untold (field : Field) (default : field ∈ fields → args.entryOf? field = none) :
      t.entryOf? field = none := by
    refine kept field fun among => ?_
    obtain ⟨e, inRow, rfl⟩ := List.mem_map.mp among
    obtain ⟨field, inFields, entry⟩ := (made e).mp inRow
    rw [Args.field_of_entryOf? entry, entry] at default
    cases default inFields
  refine ⟨fun field among => ?_, fun field out => untold field fun among => absurd among out⟩
  cases entry : args.entryOf? field with
  | none => exact untold field fun _ => entry
  | some e =>
    have inRow : e ∈ row := (made e).mpr ⟨field, among, entry⟩
    rw [← Args.field_of_entryOf? entry]
    exact told e inRow

/-- The words of a row that is made from some fields of arguments tell these and no others. -/
theorem exists_words_of_fields {row : List Entry} {pieces : List (List String)}
    (named : args.program ≠ "") (apart : fields.Nodup)
    (order : row.Perm (fields.filterMap args.entryOf?)) (spelled : List.Forall₂ Spells row pieces) :
    ∃ scan t : Scan, scan.settle = .ok t ∧
      (∀ texts, words {} false (pieces.flatten ++ texts) = scan.words false texts) ∧
      (∀ field ∈ fields, t.entryOf? field = args.entryOf? field) ∧
      ∀ field ∉ fields, t.entryOf? field = none := by
  have made : ∀ e, e ∈ row ↔ ∃ field ∈ fields, args.entryOf? field = some e :=
    fun e => order.mem_iff.trans List.mem_filterMap
  have valid : ∀ e ∈ row, e.IsValid := by
    intro e among
    obtain ⟨field, -, entry⟩ := (made e).mp among
    exact Args.isValid_of_entryOf? named entry
  have apart' : (row.map Entry.field).Nodup :=
    (order.map Entry.field).nodup_iff.mpr (Args.nodup_fields args apart)
  obtain ⟨scan, t, settled, read, told, kept⟩ := exists_words_of_row
    (rfl : settle {} = .ok {}) spelled valid (fun e _ => entryOf?_default e.field) apart'
  exact ⟨scan, t, settled, read, entryOf?_of_row made told fun field out =>
    (kept field out).trans (entryOf?_default field)⟩

end Scan

/-! ## Command lines -/

theorem parse_of_asks {words : List String} (named : args.program ≠ "") (asks : Asks args words) :
    Args.parse words = .ok args := by
  cases asks with
  | @among row pieces order spelled =>
    have order' : row.Perm ((Field.program :: Field.options).filterMap args.entryOf?) := order
    obtain ⟨scan, t, settled, read, told, -⟩ :=
      Scan.exists_words_of_fields named (by decide) order' spelled
    have whole : Scan.words {} false pieces.flatten = .ok scan := by
      simpa [Scan.words] using read []
    rw [Args.parse, whole]
    exact Scan.finish_of_settle settled fun field => told field field.mem_all
  | @behind row pieces order spelled =>
    obtain ⟨scan, t, settled, read, told, kept⟩ :=
      Scan.exists_words_of_fields named (by decide) order spelled
    have free : t.entryOf? .program = none := kept .program (by decide)
    have settled' := Scan.settle_program (Scan.pending_of_settle settled) named
    rw [Args.parse, read, Scan.words_behind settled free]
    refine Scan.finish_of_settle settled' fun field => ?_
    rcases List.mem_cons.mp field.mem_all with rfl | option
    · exact Scan.entryOf?_take t named
    · have apart : field ≠ .program := by
        rintro rfl
        exact absurd option (by decide)
      exact (Scan.entryOf?_take_of_ne t apart).trans (told field option)

/--
**Command lines are read back.**

Take any arguments with a program's name that has some text, and any command line that asks for
them. It is read as these arguments. They set the machine up with the rate told, where zero counts
as one, and with the dialect and the seed told.
-/
theorem read_back {words : List String} (named : args.program ≠ "") (asks : Asks args words) :
    Args.parse words = .ok args ∧
      args.config.ips.toNat = max 1 args.ips.toNat ∧
      args.config.dialect =
        { shiftsVY := args.shiftsVY, advancesIndex := args.advancesIndex } ∧
      args.config.seed = args.seed := by
  refine ⟨parse_of_asks named asks, ?_, rfl, rfl⟩
  rw [Nat.max_comm]
  exact Config.toNat_ips_withIps {} args.ips

/-- A name that is a number, between values that are all at their bounds, and a name that is an
option. -/
theorem read_back_deceptive_names :
    (Args.parse ["-s255", "7", "--load-store-quirk", "--seed", "18446744073709551615", "--mute",
        "-i=0"] =
      .ok { program := "7", ips := 0, scale := 255, advancesIndex := true, mute := true,
            seed := some 18446744073709551615 } ∧
      (Args.config { program := "7", ips := 0 }).ips = 1) ∧
    Args.parse ["--ips=4294967295", "-s", "0", "--shift-quirk", "--", "--mute"] =
      .ok { program := "--mute", ips := 4294967295, scale := 0, shiftsVY := true } := by
  have asks : Asks
      { program := "7", ips := 0, scale := 255, advancesIndex := true, mute := true,
        seed := some 18446744073709551615 }
      ["-s255", "7", "--load-store-quirk", "--seed", "18446744073709551615", "--mute", "-i=0"] :=
    @Asks.among _
      [.setting .scale 255, .program "7", .flag .advancesIndex,
        .setting .seed 18446744073709551615, .flag .mute, .setting .ips 0]
      [["-s255"], ["7"], ["--load-store-quirk"], ["--seed", "18446744073709551615"], ["--mute"],
        ["-i=0"]]
      (by decide)
      (.cons (@Spells.letterAttached .scale 's' rfl 255) <|
        .cons (.program (.inr (by decide))) <| .cons (.flag .advancesIndex) <|
        .cons (.apart .seed 18446744073709551615) <| .cons (.flag .mute) <|
        .cons (@Spells.letterEquals .ips 'i' rfl 0) .nil)
  have asks' : Asks { program := "--mute", ips := 4294967295, scale := 0, shiftsVY := true }
      ["--ips=4294967295", "-s", "0", "--shift-quirk", "--", "--mute"] :=
    @Asks.behind _
      [.setting .ips 4294967295, .setting .scale 0, .flag .shiftsVY]
      [["--ips=4294967295"], ["-s", "0"], ["--shift-quirk"]]
      (by decide)
      (.cons (.equals .ips 4294967295) <|
        .cons (@Spells.letterApart .scale 's' rfl 0) <| .cons (.flag .shiftsVY) .nil)
  obtain ⟨parsed, slowest, -⟩ := read_back (by decide) asks
  obtain ⟨parsed', -⟩ := read_back (by decide) asks'
  exact ⟨⟨parsed, UInt32.toNat_inj.mp slowest⟩, parsed'⟩

end Chip8.CommandLine
