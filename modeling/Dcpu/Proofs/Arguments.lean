import Dcpu.Command.Options
import Dcpu.Proofs.Results

/-!
# Command lines

A command line says by its switches whether the listing is printed and where the program goes
(`Settings`), and it may name an input among them. If no output path looks like a switch, each
choice takes effect in order and the name is the input (`Request.ofArguments_named`). A path that
looks like a switch is refused, and then it does not matter whether there is a name
(`Request.ofArguments_insert`).

A value that is attached to its switch may look like anything, but if it is `--` it counts for
nothing.
-/

namespace Dcpu
open Results

namespace Command

namespace Switch

/-- No switch has an equals sign in its spelling. -/
lemma ofSpelling?_of_equals {text : String} (equals : '=' ∈ text.toList) :
    ofSpelling? text = none := by
  have none : ∀ entry ∈ table, '=' ∉ entry.1.toList := by decide
  rw [ofSpelling?, List.lookup_eq_none_iff]
  intro entry mem
  rw [bne_iff_ne]
  rintro rfl
  exact none entry mem equals

/-- No switch is spelled like the short one for the output file with more behind it. -/
lemma ofSpelling?_of_output {letter : Char} {others : List Char} :
    ofSpelling? (String.ofList ('-' :: 'o' :: letter :: others)) = none := by
  have short : ∀ entry ∈ table, entry.1.toList.take 2 = ['-', 'o'] → entry.1.toList.length = 2 := by
    decide
  rw [ofSpelling?, List.lookup_eq_none_iff]
  intro entry mem
  rw [bne_iff_ne]
  intro same
  have long := short entry mem
  rw [← same, String.toList_ofList] at long
  exact absurd (long rfl) (by simp)

end Switch

/-! ### Arguments -/

namespace Argument

/-- An argument that does not start with a dash is a value. -/
lemma classify_of_head {text : String} (plain : text.toList.head? ≠ some '-') :
    classify text = .ok (.value text) :=
  if_pos plain

/-- A spelling of a switch is this switch. -/
lemma classify_of_spelling {s : Switch} {spelling : String} (spelled : spelling ∈ s.spellings) :
    classify spelling = .ok (.switch s (isLong spelling.toList) none) := by
  have each : ∀ s ∈ Switch.all, ∀ spelling ∈ s.spellings,
      (classify spelling).toOption = some (.switch s (isLong spelling.toList) none) := by decide
  exact toOption_eq_some.1 (each s (by cases s <;> decide) spelling spelled)

/-- A character before the equals sign belongs to the left part. -/
lemma splitAtEquals?_cons {c : Char} (other : c ≠ '=') (cs : List Char) :
    splitAtEquals? (c :: cs) = (splitAtEquals? cs).map fun parts => (c :: parts.1, parts.2) := by
  have before : (c != '=') = true := bne_iff_ne.2 other
  rw [splitAtEquals?, splitAtEquals?, List.dropWhile_cons_of_pos (p := (· != '=')) before,
    List.takeWhile_cons_of_pos (p := (· != '=')) before]
  cases cs.dropWhile (· != '=') <;> rfl

/-- A text is cut at its first equals sign. -/
lemma splitAtEquals?_append {left : List Char} (none : '=' ∉ left) (right : List Char) :
    splitAtEquals? (left ++ '=' :: right) = some (left, right) := by
  induction left with
  | nil => rfl
  | cons c left ih =>
    rw [List.mem_cons, not_or] at none
    rw [List.cons_append, splitAtEquals?_cons (Ne.symm none.1), ih none.2]
    rfl

/-- A value may be attached to a switch by an equals sign. -/
lemma classify_of_equals {s : Switch} {spelling : String} (spelled : spelling ∈ s.spellings)
    (value : String) : classify (spelling ++ "=" ++ value) =
      .ok (.switch s (isLong spelling.toList) (some value)) := by
  have each : ∀ s ∈ Switch.all, ∀ spelling ∈ s.spellings, '=' ∉ spelling.toList ∧
      spelling.toList.head? = some '-' ∧ Switch.ofSpelling? spelling = some s := by decide
  obtain ⟨plain, dash, known⟩ := each s (by cases s <;> decide) spelling spelled
  have text : (spelling ++ "=" ++ value).toList = spelling.toList ++ '=' :: value.toList := by simp
  have unknown : Switch.ofSpelling? (spelling ++ "=" ++ value) = none :=
    Switch.ofSpelling?_of_equals (by rw [text]; simp)
  have start : (spelling.toList ++ '=' :: value.toList).head? = some '-' := by
    rw [List.head?_append, dash, Option.some_or]
  simp only [classify, unknown, text, splitAtEquals?_append plain, start, ne_eq, not_true_eq_false,
    if_false, String.ofList_toList, known]

/-- A value may be attached to the short switch for the output file as it is. -/
lemma classify_of_joined {path : String} (nonempty : path ≠ "")
    (plain : path.toList.head? ≠ some '=') :
    classify ("-o" ++ path) = .ok (.switch .output false (some path)) := by
  obtain ⟨letter, others, spelled⟩ : ∃ letter others, path.toList = letter :: others := by
    apply List.exists_cons_of_ne_nil
    intro empty
    exact nonempty (String.toList_eq_nil_iff.1 empty)
  have text : ("-o" ++ path).toList = '-' :: 'o' :: letter :: others := by simp [spelled]
  have unknown : Switch.ofSpelling? ("-o" ++ path) = none := by
    rw [← String.ofList_toList (s := "-o" ++ path), text]
    exact Switch.ofSpelling?_of_output
  have guessed : guess ("-o" ++ path) ('-' :: 'o' :: letter :: others) =
      .ok (.switch .output false (some (String.ofList (letter :: others)))) := by
    have known : Switch.ofSpelling? (String.ofList ['-', 'o']) = some .output := by decide
    unfold guess
    dsimp only
    split
    · next long => cases long
    · next short =>
      cases short
      rw [known]
    · next other =>
      exact absurd rfl (other 'o' (letter :: others))
  have other : letter ≠ '=' := by
    rintro rfl
    exact plain (by rw [spelled]; rfl)
  rw [← spelled, String.ofList_toList] at guessed
  simp only [classify, unknown, text, List.head?_cons, ne_eq, not_true_eq_false, if_false]
  rw [splitAtEquals?_cons (by decide), splitAtEquals?_cons (by decide), splitAtEquals?_cons other,
    ← spelled]
  cases splitAtEquals? others with
  | none => exact guessed
  | some parts =>
    simp only [Option.map_some, Switch.ofSpelling?_of_output]
    exact guessed

/-- What is taken for a value has the text of its argument. -/
lemma eq_of_guess {argument text : String} {cs : List Char}
    (isValue : guess argument cs = .ok (.value text)) : text = argument := by
  unfold guess at isValue
  grind

/-- A value has the text of its argument. -/
lemma eq_of_classify {argument text : String} (isValue : classify argument = .ok (.value text)) :
    text = argument := by
  unfold classify at isValue
  grind [eq_of_guess]

/-- The separator is not classified: alone it could be the beginning of any long switch. -/
lemma ne_separator {text : String} {a : Argument} (known : classify text = .ok a) :
    text ≠ "--" := by
  rintro rfl
  have ambiguous : (classify "--").toOption = none := by decide
  rw [known] at ambiguous
  cases ambiguous

/-- An argument other than the separator is classified before those after it. -/
lemma classifyAll_cons {text : String} (other : text ≠ "--") (rest : List String) :
    classifyAll (text :: rest) =
      (classify text).bind fun first => (classifyAll rest).map (first :: ·) := by
  rw [classifyAll, if_neg other]
  cases classify text with
  | error e => rfl
  | ok first => cases classifyAll rest <;> rfl

/-- An argument that can be classified is not what is wrong with a list. -/
lemma error?_classifyAll_cons {text : String} {first : Argument}
    (known : classify text = .ok first) (rest : List String) :
    error? (classifyAll (text :: rest)) = error? (classifyAll rest) := by
  rw [classifyAll_cons (ne_separator known), known]
  show error? ((classifyAll rest).map _) = _
  cases classifyAll rest <;> rfl

/-- What is wrong with the end of a list matters to the whole list, and nothing else of the end. -/
lemma error?_classifyAll_append {rest rest' : List String}
    (same : error? (classifyAll rest) = error? (classifyAll rest')) (arguments : List String) :
    error? (classifyAll (arguments ++ rest)) = error? (classifyAll (arguments ++ rest')) := by
  induction arguments with
  | nil => exact same
  | cons text arguments ih =>
    by_cases separator : text = "--"
    · simp only [List.cons_append, classifyAll, if_pos separator, error?]
    · cases known : classify text with
      | error e => simp only [List.cons_append, classifyAll_cons separator, known, Except.bind]
      | ok first =>
        rw [List.cons_append, List.cons_append, error?_classifyAll_cons known,
          error?_classifyAll_cons known]
        exact ih

end Argument

/-! ### Choices -/

/-- What can be chosen for a run: to print no listing, to write no file, or to write to a path. -/
inductive Choice where
  | quiet
  | noOutput
  | output (path : String)
  deriving DecidableEq, Repr

/-- How a choice is spelled. A path stands in the argument after its switch or is attached to it,
but an attached `--` does not count. -/
inductive Spells : List String → Choice → Prop
  | quiet {spelling : String} (spelled : spelling ∈ Switch.quiet.spellings) :
      Spells [spelling] .quiet
  | noOutput {spelling : String} (spelled : spelling ∈ Switch.noOutput.spellings) :
      Spells [spelling] .noOutput
  | next {spelling path : String} (spelled : spelling ∈ Switch.output.spellings)
      (nonempty : path ≠ "") : Spells [spelling, path] (.output path)
  | equals {spelling path : String} (spelled : spelling ∈ Switch.output.spellings)
      (nonempty : path ≠ "") (other : path ≠ "--") :
      Spells [spelling ++ "=" ++ path] (.output path)
  | joined {path : String} (nonempty : path ≠ "") (other : path ≠ "--")
      (plain : path.toList.head? ≠ some '=') : Spells ["-o" ++ path] (.output path)

/-- How choices are spelled, one after another. -/
inductive Settings : List String → List Choice → Prop
  | nil : Settings [] []
  | cons {part rest : List String} {c : Choice} {cs : List Choice} (here : Spells part c)
      (later : Settings rest cs) : Settings (part ++ rest) (c :: cs)

namespace Options

/-- The options after a choice. -/
def choose (o : Options) : Choice → Options
  | .quiet => { o with quiet := true }
  | .noOutput => { o with noOutput := true }
  | .output path => { o with output := some path }

/-- The options after choices. -/
def chooseAll (o : Options) (cs : List Choice) : Options :=
  cs.foldl choose o

/-- Tells whether it is settled, without the name of the input, where the program goes. -/
def IsAimed (o : Options) : Prop :=
  o.noOutput = true ∨ o.output ≠ none

lemma chooseAll_append (o : Options) (bs cs : List Choice) :
    o.chooseAll (bs ++ cs) = (o.chooseAll bs).chooseAll cs :=
  List.foldl_append

/-- Choices do not depend on the input. -/
lemma chooseAll_input (o : Options) (input : String) (cs : List Choice) :
    chooseAll { o with input } cs = { o.chooseAll cs with input } := by
  induction cs generalizing o with
  | nil => rfl
  | cons c cs ih =>
    refine Eq.trans ?_ (ih (o.choose c))
    cases c <;> rfl

/-- Nothing more is told because of choices. -/
lemma verbose_chooseAll (o : Options) (cs : List Choice) :
    (o.chooseAll cs).verbose = o.verbose := by
  induction cs generalizing o with
  | nil => rfl
  | cons c cs ih =>
    refine (ih (o.choose c)).trans ?_
    cases c <;> rfl

lemma IsAimed.choose {o : Options} (aimed : o.IsAimed) (c : Choice) : (o.choose c).IsAimed := by
  cases c with
  | quiet => exact aimed
  | noOutput => exact .inl rfl
  | output path => exact .inr (Option.some_ne_none path)

/-- What has been settled about the output stays settled. -/
lemma IsAimed.chooseAll {o : Options} (aimed : o.IsAimed) (cs : List Choice) :
    (o.chooseAll cs).IsAimed := by
  induction cs generalizing o with
  | nil => exact aimed
  | cons c cs ih => exact ih (aimed.choose c)

/-- One choice about the output settles where the program goes. -/
lemma isAimed_chooseAll {cs : List Choice} (aimed : ∃ c ∈ cs, c ≠ .quiet) (o : Options) :
    (o.chooseAll cs).IsAimed := by
  obtain ⟨c, mem, other⟩ := aimed
  obtain ⟨before, after, rfl⟩ := List.append_of_mem mem
  rw [chooseAll_append]
  apply IsAimed.chooseAll (o := (o.chooseAll before).choose c)
  cases c with
  | quiet => exact absurd rfl other
  | noOutput => exact .inl rfl
  | output path => exact .inr (Option.some_ne_none path)

end Options

/-! ### Reading choices -/

namespace Reading

/-- Reads arguments after what has been read. -/
def read (r : Reading) (arguments : List String) : Except UsageError Request :=
  (Argument.classifyAll arguments).bind r.run

/-- Takes choices. -/
def choose (r : Reading) (cs : List Choice) : Reading :=
  { r with options := r.options.chooseAll cs }

/-- Tells whether arguments make the choices, whatever has been read and whatever comes after. -/
def Makes (arguments : List String) (cs : List Choice) : Prop :=
  ∀ (r : Reading) (rest : List String), r.read (arguments ++ rest) = (r.choose cs).read rest

/-- Tells whether arguments are refused, whatever has been read and whatever comes after, unless
that is reported first. -/
def Refuses (arguments : List String) : Prop :=
  ∀ (r r' : Reading) (rest rest' : List String),
    error? (Argument.classifyAll rest) = error? (Argument.classifyAll rest') →
    ∃ e, r.read (arguments ++ rest) = .error e ∧ r'.read (arguments ++ rest') = .error e

/-- An argument is classified and then taken before the others. -/
lemma read_cons {r : Reading} {text : String} {first : Argument}
    (known : Argument.classify text = .ok first) (rest : List String) :
    r.read (text :: rest) = (Argument.classifyAll rest).bind fun as => r.run (first :: as) := by
  rw [read, Argument.classifyAll_cons (Argument.ne_separator known), known]
  show ((Argument.classifyAll rest).map _).bind _ = _
  cases Argument.classifyAll rest <;> rfl

/-- An argument makes a choice if it is classified as something that does. -/
lemma makes_of_run {text : String} {first : Argument} {c : Choice}
    (known : Argument.classify text = .ok first)
    (step : ∀ (r : Reading) as, r.run (first :: as) = (r.choose [c]).run as) :
    Makes [text] [c] := by
  intro r rest
  rw [List.singleton_append, read_cons known]
  simp only [step]
  rfl

/-- A path that counts is taken as a choice. -/
lemma output_eq {path : String} (nonempty : path ≠ "") (other : path ≠ "--") (r : Reading) :
    r.output path = r.choose [.output path] := by
  have named : ¬(path = "--" || path.isEmpty) = true := by
    simp only [Bool.or_eq_true, decide_eq_true_eq, String.isEmpty_iff, not_or]
    exact ⟨other, nonempty⟩
  rw [output, if_neg named]
  rfl

/-- A value is the input or left over, if no separator comes next. -/
lemma run_value {as : List Argument} (next : as.head? ≠ some .separator) (r : Reading)
    (text : String) : r.run (.value text :: as) = (r.input text).run as := by
  cases as with
  | nil => rfl
  | cons a as =>
    cases a with
    | separator => exact absurd rfl next
    | value other => rfl
    | switch s long attached => rfl
    | unknown other => rfl

/-- An output path is attached to its switch. -/
lemma run_attached {path : String} (nonempty : path ≠ "") (other : path ≠ "--") (long : Bool)
    (r : Reading) (as : List Argument) :
    r.run (.switch .output long (some path) :: as) = (r.choose [.output path]).run as := by
  rw [← output_eq nonempty other]
  rfl

/-- An output path comes after its switch. -/
lemma run_next {path : String} (nonempty : path ≠ "") (other : path ≠ "--") (long : Bool)
    (r : Reading) (as : List Argument) :
    r.run (.switch .output long none :: .value path :: as) = (r.choose [.output path]).run as := by
  rw [← output_eq nonempty other]
  rfl

/-- An output path is missing. -/
lemma run_missing {a : Argument} (other : ∀ text, a ≠ .value text) (long : Bool) (r : Reading)
    (as : List Argument) :
    r.run (.switch .output long none :: a :: as) = .error (.missingValue .output) := by
  cases a with
  | value text => exact absurd rfl (other text)
  | separator => rfl
  | switch s long attached => rfl
  | unknown text => rfl

end Reading

namespace Spells

open Reading

/-- A path after its switch makes a choice if it is a value. -/
lemma makes_next {spelling path : String} (spelled : spelling ∈ Switch.output.spellings)
    (nonempty : path ≠ "") (isValue : Argument.classify path = .ok (.value path)) :
    Makes [spelling, path] [.output path] := by
  intro r rest
  have other := Argument.ne_separator isValue
  show r.read (spelling :: path :: rest) = _
  rw [read_cons (Argument.classify_of_spelling spelled), Argument.classifyAll_cons other, isValue]
  show ((Argument.classifyAll rest).map _).bind _ = _
  rw [Reading.read]
  cases Argument.classifyAll rest with
  | error e => rfl
  | ok as => exact run_next nonempty other (Argument.isLong spelling.toList) r as

/-- A path after its switch is refused if it is no value. -/
lemma refuses_next {spelling path : String} (spelled : spelling ∈ Switch.output.spellings)
    (noValue : Argument.classify path ≠ .ok (.value path)) : Refuses [spelling, path] := by
  intro r r' rest rest' same
  show ∃ e, r.read (spelling :: path :: rest) = .error e ∧
    r'.read (spelling :: path :: rest') = .error e
  have switch := Argument.classify_of_spelling spelled
  rw [read_cons switch, read_cons switch]
  by_cases separator : path = "--"
  · rw [Argument.classifyAll, if_pos separator, Argument.classifyAll, if_pos separator]
    exact ⟨_, rfl, rfl⟩
  rw [Argument.classifyAll_cons separator, Argument.classifyAll_cons separator]
  cases known : Argument.classify path with
  | error e => exact ⟨e, rfl, rfl⟩
  | ok a =>
    have other (text : String) : a ≠ .value text := by
      rintro rfl
      cases Argument.eq_of_classify known
      exact noValue known
    -- What comes after is classified before it is seen that the path is missing.
    generalize Argument.classifyAll rest = as at same ⊢
    generalize Argument.classifyAll rest' = as' at same ⊢
    cases as with
    | error e =>
      cases as' with
      | error e' =>
        cases same
        exact ⟨e, rfl, rfl⟩
      | ok as' => cases same
    | ok as =>
      cases as' with
      | error e' => cases same
      | ok as' => exact ⟨_, run_missing other _ r as, run_missing other _ r' as'⟩

/-- A choice is made, or it is refused because its path is no value. -/
lemma makes_or_refuses {part : List String} {c : Choice} (spells : Spells part c) :
    Makes part [c] ∨ Refuses part ∧
      ∃ path, c = .output path ∧ Argument.classify path ≠ .ok (.value path) := by
  cases spells with
  | quiet spelled =>
    left
    apply makes_of_run (Argument.classify_of_spelling spelled)
    exact fun _ _ => rfl
  | noOutput spelled =>
    left
    apply makes_of_run (Argument.classify_of_spelling spelled)
    exact fun _ _ => rfl
  | @next spelling path spelled nonempty =>
    by_cases isValue : Argument.classify path = .ok (.value path)
    · exact .inl (makes_next spelled nonempty isValue)
    · exact .inr ⟨refuses_next spelled isValue, path, rfl, isValue⟩
  | equals spelled nonempty other =>
    left
    apply makes_of_run (Argument.classify_of_equals spelled _)
    exact run_attached nonempty other _
  | joined nonempty other start =>
    left
    apply makes_of_run (Argument.classify_of_joined nonempty start)
    exact run_attached nonempty other _

/-- A choice starts with a switch. -/
lemma exists_switch {part : List String} {c : Choice} (spells : Spells part c) :
    ∃ text others s long attached, part = text :: others ∧
      Argument.classify text = .ok (.switch s long attached) := by
  cases spells with
  | quiet spelled => exact ⟨_, _, _, _, _, rfl, Argument.classify_of_spelling spelled⟩
  | noOutput spelled => exact ⟨_, _, _, _, _, rfl, Argument.classify_of_spelling spelled⟩
  | next spelled _ => exact ⟨_, _, _, _, _, rfl, Argument.classify_of_spelling spelled⟩
  | equals spelled _ _ => exact ⟨_, _, _, _, _, rfl, Argument.classify_of_equals spelled _⟩
  | joined nonempty _ start =>
    exact ⟨_, _, _, _, _, rfl, Argument.classify_of_joined nonempty start⟩

end Spells

namespace Settings

open Reading

variable {arguments : List String} {cs : List Choice}

/-- All choices are made, or they are refused because some path is no value. -/
lemma makes_or_refuses (settings : Settings arguments cs) :
    Makes arguments cs ∨ Refuses arguments ∧
      ∃ path, .output path ∈ cs ∧ Argument.classify path ≠ .ok (.value path) := by
  induction settings with
  | nil => exact .inl fun _ _ => rfl
  | @cons part arguments c cs here later ih =>
    rcases here.makes_or_refuses with makes | ⟨refuses, path, rfl, noValue⟩
    · rcases ih with others | ⟨refuses, path, mem, noValue⟩
      · left
        intro r rest
        rw [List.append_assoc, makes, others]
        rfl
      · right
        refine ⟨?_, path, List.mem_cons_of_mem _ mem, noValue⟩
        intro r r' rest rest' same
        rw [List.append_assoc, List.append_assoc, makes, makes]
        exact refuses _ _ rest rest' same
    · right
      refine ⟨?_, path, List.mem_cons_self, noValue⟩
      intro r r' rest rest' same
      rw [List.append_assoc, List.append_assoc]
      exact refuses r r' _ _ (Argument.error?_classifyAll_append same arguments)

/-- Choices are made if no path looks like a switch. -/
lemma makes (settings : Settings arguments cs)
    (plain : ∀ path, .output path ∈ cs → path.toList.head? ≠ some '-') : Makes arguments cs := by
  rcases settings.makes_or_refuses with makes | ⟨_, path, mem, noValue⟩
  · exact makes
  · exact absurd (Argument.classify_of_head (plain path mem)) noValue

lemma append {before after : List String} {bs cs : List Choice} (first : Settings before bs)
    (later : Settings after cs) : Settings (before ++ after) (bs ++ cs) := by
  induction first with
  | nil => exact later
  | cons here _ ih =>
    rw [List.append_assoc]
    exact .cons here ih

/-- Choices do not start with a separator. -/
lemma head_ne_separator {as : List Argument} (settings : Settings arguments cs)
    (known : Argument.classifyAll arguments = .ok as) : as.head? ≠ some .separator := by
  cases settings with
  | nil =>
    cases known
    exact Option.some_ne_none _ ∘ Eq.symm
  | cons here _ =>
    obtain ⟨text, others, s, long, attached, rfl, switch⟩ := here.exists_switch
    rw [List.cons_append, Argument.classifyAll_cons (Argument.ne_separator switch), switch] at known
    obtain ⟨as, _, rfl⟩ := map_eq_ok.1 known
    intro first
    cases first

/-- A value before choices is the input or left over. -/
lemma read_value (settings : Settings arguments cs) {text : String}
    (isValue : Argument.classify text = .ok (.value text)) (r : Reading) :
    r.read (text :: arguments) = (r.input text).read arguments := by
  rw [read_cons isValue, Reading.read]
  cases known : Argument.classifyAll arguments with
  | error e => rfl
  | ok as => exact run_value (settings.head_ne_separator known) r text

end Settings

/-! ### Requests -/

namespace Request

/-- The request with another input. -/
def named (text : String) : Request → Request
  | .run o => .run { o with input := text }
  | .help => .help
  | .version => .version

lemma ofArguments_eq (arguments : List String) :
    ofArguments arguments = Reading.read {} arguments :=
  rfl

/-- Choices that are all made are the request. -/
lemma ofArguments_of_makes {arguments : List String} {cs : List Choice}
    (makes : Reading.Makes arguments cs) :
    ofArguments arguments = .ok (.run (Options.chooseAll {} cs)) := by
  rw [ofArguments_eq, ← List.append_nil arguments, makes]
  rfl

/-- A command line of choices is refused or asks for a run with these choices. -/
lemma ofArguments_settings {arguments : List String} {cs : List Choice}
    (settings : Settings arguments cs) :
    (∃ e, ofArguments arguments = .error e) ∨
      ofArguments arguments = .ok (.run (Options.chooseAll {} cs)) := by
  rcases settings.makes_or_refuses with makes | ⟨refuses, _⟩
  · exact .inr (ofArguments_of_makes makes)
  · obtain ⟨e, refused, _⟩ := refuses {} {} [] [] rfl
    rw [List.append_nil] at refused
    exact .inl ⟨e, refused⟩

variable {before after : List String} {bs cs : List Choice}

/-- A value among choices is the input and changes nothing else, also if the choices are refused. -/
lemma ofArguments_insert (first : Settings before bs) (later : Settings after cs) {text : String}
    (isValue : Argument.classify text = .ok (.value text)) :
    ofArguments (before ++ text :: after) = (ofArguments (before ++ after)).map (named text) := by
  rw [ofArguments_eq, ofArguments_eq]
  rcases first.makes_or_refuses with makes | ⟨refuses, _⟩
  · rw [makes, makes, later.read_value isValue]
    rcases later.makes_or_refuses with others | ⟨refuses, _⟩
    · rw [← List.append_nil after, others, others]
      show Except.ok (run (Options.chooseAll { Options.chooseAll {} bs with input := text } cs)) = _
      rw [Options.chooseAll_input]
      rfl
    · obtain ⟨e, refused, same⟩ := refuses _ _ [] [] rfl
      rw [List.append_nil] at refused same
      rw [refused, same]
      rfl
  · obtain ⟨e, refused, same⟩ := refuses {} {} (text :: after) after
      (Argument.error?_classifyAll_cons isValue after)
    rw [refused, same]
    rfl

/-- Choices with paths that do not look like switches are made, and the name of a file among them is
the input. -/
lemma ofArguments_named (first : Settings before bs) (later : Settings after cs)
    (plain : ∀ path, .output path ∈ bs ++ cs → path.toList.head? ≠ some '-') {name : String}
    (file : name.toList.head? ≠ some '-') :
    ofArguments (before ++ name :: after) =
      .ok (.run { Options.chooseAll {} (bs ++ cs) with input := name }) := by
  rw [ofArguments_insert first later (Argument.classify_of_head file),
    ofArguments_of_makes ((first.append later).makes plain)]
  rfl

end Request

end Command

end Dcpu
