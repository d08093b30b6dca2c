import Phrasebook.Message.Identifier
import Phrasebook.Proofs.Text.Balanced
import Phrasebook.Proofs.Text.CodePoints

set_option autoImplicit false

/-!
What is hashed for the id of a message. The separator between message and context is the first one,
since no message has one, so the bytes that are hashed tell both. There are none if a surrogate stands
alone in the message or in the context.
-/
namespace Phrasebook.Message

open Text (CodePoints LoneRun isSurrogate)

section

variable {message other : CodePoints} {context otherContext : Option CodePoints}

theorem payload_isWhole_iff :
    (payload message context).IsWhole ↔ message.IsWhole ∧ (context.getD []).IsWhole := by
  have mark : isSurrogate unitSeparator.toNat = false := CodePoints.not_isSurrogate unitSeparator
  simp only [payload, CodePoints.IsWhole, List.mem_append, List.mem_cons, or_imp, forall_and,
    forall_eq, mark, true_and]

theorem payload_inUnicode (inside : message.InUnicode) (insideContext : (context.getD []).InUnicode) :
    (payload message context).InUnicode :=
  CodePoints.inUnicode_append inside (CodePoints.inUnicode_cons.mpr ⟨by decide, insideContext⟩)

/-- A message and a context that are text have the id of this text. -/
theorem identify_of_isWhole (whole : message.IsWhole) (wholeContext : (context.getD []).IsWhole) :
    identify message context = .ok (identifier message.shown (context.map CodePoints.shown)) := by
  have behind : ((context.map CodePoints.shown).getD "").toList =
      (context.getD []).map Char.ofNat := by
    cases context with
    | none => rfl
    | some text => exact String.toList_ofList
  have same : (payload message context).map Char.ofNat = message.shown.toList ++
      unitSeparator :: ((context.map CodePoints.shown).getD "").toList := by
    rw [payload, List.map_append, List.map_cons, Char.ofNat_toNat, behind, CodePoints.shown,
      String.toList_ofList]
  rw [identify, hashed, CodePoints.encode_of_isWhole (payload_isWhole_iff.mpr ⟨whole, wholeContext⟩),
    same]
  rfl

/-- The message ends at the first separator. -/
theorem payload_injective (unmarked : unitSeparator.toNat ∉ message)
    (unmarkedOther : unitSeparator.toNat ∉ other)
    (same : payload message context = payload other otherContext) :
    message = other ∧ context.getD [] = otherContext.getD [] := by
  obtain ⟨messages, behind⟩ :=
    Text.append_mark_injective unmarked unmarkedOther (by simp) (by simp) same
  exact ⟨messages, (List.cons.inj behind).2⟩

/-- Nothing is hashed if a surrogate stands alone in the message or in the context. Else the id is made
of the bytes that are hashed, and these tell the message and its context, no context being the empty
one. -/
theorem hashed_tells (inside : message.InUnicode) (insideContext : (context.getD []).InUnicode)
    (insideOther : other.InUnicode) (insideOtherContext : (otherContext.getD []).InUnicode)
    (unmarked : unitSeparator.toNat ∉ message) (unmarkedOther : unitSeparator.toNat ∉ other) :
    ((∃ run, hashed message context = .error run) ↔
      ¬ (message.IsWhole ∧ (context.getD []).IsWhole)) ∧
    ∀ bytes, hashed message context = .ok bytes →
      identify message context = .ok (shortDigest bytes) ∧
      (hashed other otherContext = .ok bytes ↔
        message = other ∧ context.getD [] = otherContext.getD []) := by
  refine ⟨CodePoints.encode_error_iff.trans (not_congr payload_isWhole_iff), ?_⟩
  intro bytes own
  refine ⟨by rw [identify, own]; rfl, ?_, ?_⟩
  · intro same
    exact payload_injective unmarked unmarkedOther
      (CodePoints.encode_injective (payload_inUnicode inside insideContext)
        (payload_inUnicode insideOther insideOtherContext) own same)
  · rintro ⟨rfl, contexts⟩
    rw [← own, hashed, hashed, payload, payload, contexts]

end

/-- Text that moves from the message to the context is not lost; an empty context is none. -/
theorem hashed_moved :
    ∃ bytes, hashed (.ofString "ab") (some (.ofString "c")) = .ok bytes ∧
      hashed (.ofString "a") (some (.ofString "bc")) ≠ .ok bytes ∧
      hashed (.ofString "ab") none ≠ .ok bytes ∧
      hashed (.ofString "ab") (some []) = hashed (.ofString "ab") none := by
  have inside (text : String) : (CodePoints.ofString text).InUnicode :=
    CodePoints.inUnicode_ofChars text.toList
  have unmarked : unitSeparator.toNat ∉ CodePoints.ofString "ab" := by decide
  have unmarkedOther : unitSeparator.toNat ∉ CodePoints.ofString "a" := by decide
  have moved := @hashed_tells _ _ (some (.ofString "c")) (some (.ofString "bc")) (inside "ab")
    (inside "c") (inside "a") (inside "bc") unmarked unmarkedOther
  have lost := @hashed_tells _ _ (some (.ofString "c")) none (inside "ab") (inside "c")
    (inside "ab") (inside "") unmarked unmarked
  obtain ⟨bytes, own⟩ : ∃ bytes, hashed (.ofString "ab") (some (.ofString "c")) = .ok bytes :=
    ⟨_, rfl⟩
  refine ⟨bytes, own, fun same => ?_, fun same => ?_, rfl⟩
  · exact absurd ((moved.2 bytes own).2.mp same).1 (by decide)
  · exact absurd ((lost.2 bytes own).2.mp same).2 (by decide)

/-- A message that is half of a pair of surrogates is hashed in no way. -/
theorem hashed_surrogate :
    unitSeparator.toNat ∉ ([0xD83D] : CodePoints) ∧
      ∀ bytes, hashed [0xD83D] none ≠ .ok bytes := by
  have lone : hashed [0xD83D] none = .error ⟨0, 0xD83D, 1⟩ := by decide
  refine ⟨by decide, fun bytes hashes => ?_⟩
  cases lone.symm.trans hashes

end Phrasebook.Message
