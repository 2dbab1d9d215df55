/-
# DependencyAudit.Proofs.Decoders -- what decoders come to

A decoder `Decodes` to a value if it comes to the value whatever the numbers of a text stand
for, and follows no alias.  Decoders in sequence do, one after the other (`Decodes.bind`) or one
for each member of a list (`decodes_mapM`); and a document that a JSON value gives decodes to
what the value was written for (`decodes_texts`, `decodes_entries`).
-/
import Mathlib.Data.List.Forall2
import DependencyAudit.Document.OfJson

namespace DependencyAudit

set_option autoImplicit false

/-- A decoder comes to a value, whatever numbers stand for. -/
def Decodes {α : Type} (decoder : Decoder α) (value : α) : Prop :=
  ∀ anchors hops, decoder anchors hops = some (value, hops)

section Decoders

variable {α β : Type}

theorem decodes_pure (value : α) : Decodes (pure value) value :=
  fun _ _ => rfl

theorem Decodes.bind {first : Decoder α} {next : α → Decoder β} {value : α} {result : β}
    (decodes : Decodes first value) (continues : Decodes (next value) result) :
    Decodes (first >>= next) result := by
  intro anchors hops
  rw [Decoder.bind_apply, decodes anchors hops]
  exact continues anchors hops

theorem decodes_mapM {read : α → Decoder β} {inputs : List α} {outputs : List β}
    (each : List.Forall₂ (fun input output => Decodes (read input) output) inputs outputs) :
    Decodes (inputs.mapM read) outputs := by
  induction each with
  | nil => exact decodes_pure []
  | cons head _ tail =>
      rw [List.mapM_cons]
      exact head.bind (tail.bind (decodes_pure _))

namespace Document

theorem decodes_text (text : String) : Decodes (Document.text (ofJson (.string text))) text := by
  intro anchors hops
  rw [ofJson]
  rfl

theorem decodes_natural {n bound : Nat} (small : n < bound) :
    Decodes (Document.natural bound (ofJson (.ofNat n))) n := by
  intro anchors hops
  have read := Json.natural?_ofNat n
  rw [Json.ofNat] at read ⊢
  rw [ofJson, read]
  change Decoder.ofOption ((some n).filter (· < bound)) anchors hops = _
  simp [Decoder.ofOption, small]

theorem decodes_texts (texts : List String) :
    Decodes (Document.texts (ofJson (.ofTexts texts))) texts := by
  have items : Decodes ((texts.map fun text => ofJson (.string text)).mapM Document.text)
      texts := by
    refine decodes_mapM (List.forall₂_map_left_iff.mpr ?_)
    exact List.forall₂_same.mpr fun text _ => decodes_text text
  intro anchors hops
  rw [Json.ofTexts, ofJson, List.map_map]
  exact items anchors hops

theorem ofJson_object (fields : List (String × Json)) :
    ofJson (.object fields) =
      .record (fields.map fun field => (.leaf (.ofText field.1), ofJson field.2)) := by
  have named : ofJson.named fields =
      fields.map fun field => (.leaf (.ofText field.1), ofJson field.2) := by
    induction fields with
    | nil => rw [ofJson.named, List.map_nil]
    | cons field rest same => rw [ofJson.named, same, List.map_cons]
  rw [ofJson, named]

/-- All fields of an object are read in order. -/
theorem decodes_entries {read : String → Document → Decoder α} {fields : List (String × Json)}
    {values : List α}
    (each : List.Forall₂ (fun field value => Decodes (read field.1 (ofJson field.2)) value) fields
      values) :
    Decodes (Document.entries read (ofJson (.object fields))) values := by
  rw [ofJson_object]
  refine decodes_mapM (List.forall₂_map_left_iff.mpr (each.imp fun field value decodes => ?_))
  have key := decodes_text field.1
  rw [ofJson] at key
  exact key.bind decodes

end Document

end Decoders

end DependencyAudit
