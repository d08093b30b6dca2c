import Phrasebook.Plural.Locale
import Phrasebook.Proofs.Message.Plain
import Phrasebook.Proofs.Message.RoundTrip

set_option autoImplicit false

/-!
Reading a text without apostrophes loses nothing: the literals and the sources of the arguments that
are read are, one after another, the text itself. So a text that is formatted without values is
shown as it is.
-/
namespace Phrasebook.Message

open Outcome (ok_bind)

/-! ### Sources -/

/-- The text that a part was read from, where no apostrophes are. -/
def Part.source : Part → String
  | .literal text => text
  | .pound => "#"
  | .argument _ source => source
  | .plural _ source _ _ _ => source
  | .select _ source _ => source

/-- The sources of the parts, one after another. -/
def Pattern.source (pattern : Pattern) : List Char := pattern.flatMap (·.source.toList)

theorem Pattern.source_cons (part : Part) (rest : Pattern) :
    Pattern.source (part :: rest) = part.source.toList ++ Pattern.source rest := rfl

theorem Pattern.source_prepend (text : List Char) (pattern : Pattern) :
    Pattern.source (pattern.prepend text) = text ++ Pattern.source pattern := by
  have apart : Pattern.source (.literal (String.ofList text) :: pattern) =
      text ++ Pattern.source pattern := by
    rw [Pattern.source_cons, Part.source, String.toList_ofList]
  cases pattern with
  | nil => exact apart
  | cons part rest =>
    cases part with
    | literal next =>
      rw [Pattern.prepend, Pattern.source_cons, Pattern.source_cons, Part.source, Part.source,
        String.toList_append, String.toList_ofList, List.append_assoc]
    | _ => exact apart

theorem Pattern.join_source (pattern : Pattern) :
    String.join (pattern.map Part.source) = String.ofList (Pattern.source pattern) := by
  induction pattern with
  | nil => rfl
  | cons part rest ih =>
    rw [List.map_cons, String.join_cons, ih, Pattern.source_cons, String.ofList_append,
      String.ofList_toList]

/-- The source of an argument is what stands between its start and what is left after it. -/
theorem ReadsArgument.source {inPlural : Bool} {start rest : List Char} {part : Part}
    (read : ReadsArgument inPlural start part rest) :
    part.source = between start rest ∧ part ≠ .pound := by
  cases read <;> exact ⟨rfl, nofun⟩

theorem between_of_suffix {start rest : List Char} (suffix : rest <:+ start) :
    (between start rest).toList ++ rest = start := by
  obtain ⟨written, rfl⟩ := suffix
  rw [between_append, String.toList_ofList]

/-- What is read of a text without apostrophes is what was written, and only plural choices have
places for a number. -/
structure Covers (inPlural : Bool) (text rest : List Char) (pattern : Pattern) : Prop where
  source : Pattern.source pattern ++ rest = text
  pound : inPlural = false → .pound ∉ pattern

theorem Covers.prepend {inPlural : Bool} {text rest : List Char} {pattern : Pattern}
    (covers : Covers inPlural text rest pattern) (c : Char) :
    Covers inPlural (c :: text) rest (pattern.prepend [c]) := by
  refine ⟨?_, fun outside member => covers.pound outside ?_⟩
  · rw [Pattern.source_prepend, List.append_assoc, covers.source]
    rfl
  · unfold Pattern.prepend at member
    split at member <;> simp_all

theorem ReadsParts.covers {inPlural : Bool} {text rest : List Char} {pattern : Pattern}
    (read : ReadsParts inPlural text pattern rest) (unquoted : '\'' ∉ text) :
    Covers inPlural text rest pattern := by
  match read with
  | .ends => exact ⟨rfl, fun _ => List.not_mem_nil⟩
  | .close => exact ⟨rfl, fun _ => List.not_mem_nil⟩
  | .argument first later =>
    have suffix := first.passed.suffix
    have others := later.covers fun member => unquoted (suffix.subset member)
    have own := between_of_suffix suffix
    obtain ⟨between, apart⟩ := first.source
    rw [← between] at own
    refine ⟨?_, fun outside member => ?_⟩
    · rw [Pattern.source_cons, List.append_assoc, others.source, own]
    · rcases List.mem_cons.mp member with same | inside
      · exact apart same.symm
      · exact others.pound outside inside
  | .pound later =>
    have others := later.covers fun member => unquoted (List.mem_cons_of_mem _ member)
    refine ⟨?_, nofun⟩
    rw [Pattern.source_cons, List.append_assoc, others.source]
    rfl
  | .apostrophe later => exact absurd List.mem_cons_self unquoted
  | .plain _ _ later =>
    exact (later.covers fun member => unquoted (List.mem_cons_of_mem _ member)).prepend _

/-! ### Formatting without values -/

/-- Without values each part is shown as its source. -/
theorem renderParts_unfilled [Plural.Rules] (locale : Option String) (pattern : Pattern) :
    renderParts [] locale none pattern = .ok (String.ofList (Pattern.source pattern)) := by
  induction pattern with
  | nil => rfl
  | cons part rest ih =>
    have own : renderPart [] locale none part = .ok part.source := by
      cases part <;> rfl
    rw [renderParts, own, ok_bind, ih, Pattern.source_cons, String.ofList_append,
      String.ofList_toList]
    rfl

/-- A text without apostrophes is covered by the sources of its parts, none of which is a place for
a number, and it is shown as it is where there are no values; with a warning if it is no message. -/
theorem format_unfilled [Plural.Rules] (text : String) (unquoted : '\'' ∉ text.toList)
    (locale : Option String) :
    (∀ pattern, parse text = .ok pattern →
      String.join (pattern.map Part.source) = text ∧ .pound ∉ pattern ∧
        format text [] locale = .ok ⟨text, none⟩) ∧
      ∀ error, parse text = .error error → error.isReported = true →
        format text [] locale = .ok ⟨text, some (.unreadable error)⟩ := by
  constructor
  · intro pattern read
    have covers : Covers false text.toList [] pattern :=
      (readParts_eq_ok.mp (parse_eq_ok.mp read)).covers unquoted
    have whole : String.ofList (Pattern.source pattern) = text := by
      rw [← String.ofList_toList (s := text), ← covers.source, List.append_nil]
    refine ⟨by rw [Pattern.join_source, whole], covers.pound rfl, ?_⟩
    rw [format_eq, read]
    dsimp only
    rw [formatPattern, renderParts_unfilled, whole]
  · intro error stuck reported
    rw [format_eq, stuck]
    dsimp only
    rw [if_pos reported]

/-- A choice inside a choice, an offset, a style with braces of its own and blanks of all kinds. -/
def delivery : String :=
  "\x7bn, plural, offset:1\n=0 \x7bnobody\x7d other \x7b# of \x7btotal, number, \x7b0\x7d\x7d " ++
    "\x7bkind , select, a \x7bin \x7bcity\x7d\x7d other \x7b\x7d\x7d\x7d\x7d #1"

theorem format_unfilled_delivery :
    '\'' ∉ delivery.toList ∧ (∃ pattern, parse delivery = .ok pattern ∧
      String.join (pattern.map Part.source) = delivery) ∧
      format delivery [] (some "en") = .ok ⟨delivery, none⟩ := by
  have unquoted : '\'' ∉ delivery.toList := by decide +kernel
  have readable : (parse delivery).toOption.isSome = true := by decide +kernel
  obtain ⟨pattern, found⟩ := Option.isSome_iff_exists.mp readable
  have read := Outcome.toOption_eq_some.mp found
  obtain ⟨whole, -, shown⟩ := (format_unfilled delivery unquoted (some "en")).1 pattern read
  exact ⟨unquoted, ⟨pattern, read, whole⟩, shown⟩

end Phrasebook.Message
