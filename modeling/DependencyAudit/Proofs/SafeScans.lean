/-
# DependencyAudit.Proofs.SafeScans -- scanning is safe on every text

A text that comes from a file may be anything.  Still no scan of it runs past its end, cuts it
inside of a character, or goes on for ever (`scans_safely`).

A position moves octet by octet and so comes to be inside of characters on the way.  A cut is
made only where an octet of ASCII was seen or the text ends, and that is between characters.  A
scan ends since every call that returns and every turn of a loop has moved on, the text has only
so many octets, and only few calls are made between two of them (`ends_signature`,
`ends_descriptor`).

The depth of the stack is not part of this.  The calls of a scan of a signature are inside of
one another as often as its types are, which the length of the text bounds and nothing else;
whether a machine has so much room is not said here.
-/
import DependencyAudit.Proofs.DescriptorDescents
import DependencyAudit.Proofs.SignatureDescents

namespace DependencyAudit.TypeText.Descent

open DependencyAudit.Text

set_option autoImplicit false

/-- With enough budget a scan ends, always in the same way, and has been sound to its end. -/
def Ends (text : String) (scanner : Nat → Scanner Unit) (enough : Nat) (names : NameSet)
    (outcome : Except Fault Unit) (kept : NameSet) : Prop :=
  ∃ memory, (∀ budget, enough < budget → run scanner budget names = some (outcome, memory)) ∧
    Sound text memory ∧ memory.names = kept

/-- A scan starts soundly. -/
theorem sound_start (text : String) (names : NameSet) : Sound text ⟨0, names, []⟩ :=
  ⟨Nat.zero_le _, nofun⟩

/-- A scan that ends with just enough budget ends with any more in the same way. -/
theorem ends_of_reaches {text : String} {scanner : Nat → Scanner Unit} {enough : Nat}
    {outcome : Except Fault Unit} {found : List String}
    (grants : ∀ {less more}, less ≤ more → Grants (scanner less) (scanner more))
    (reaches : ∃ stop, Reaches text (scanner (enough + 1)) 0 outcome stop found)
    (names : NameSet) : Ends text scanner enough names outcome (names.insertAll found) := by
  obtain ⟨stop, reaches⟩ := reaches
  obtain ⟨trail, sound, ran⟩ := reaches names [] (sound_start text names)
  exact ⟨_, fun budget large => grants large _ _ ran, sound, rfl⟩

theorem ends_signature (text : String) (names : NameSet) :
    Ends text (signature text) (4 * (Utf8.encodeString text).length + 3) names (verdict text)
      (Signature.collect text names) :=
  ends_of_reaches grants_signature (reaches_signature text (Nat.lt_succ_self _)) names

theorem ends_descriptor (text : String) (names : NameSet) :
    Ends text (descriptor text) (Utf8.encodeString text).length names (.ok ())
      (Descriptor.collect text names) :=
  ends_of_reaches grants_descriptor (reaches_descriptor text (Nat.lt_succ_self _)) names

/-- **Scanning is safe on every text**: with any budget from some size on, it ends, positions have
stayed inside of the text and cuts between its characters, calls and turns of loops have moved on,
and the names are those that a scan of the characters finds. -/
theorem scans_safely (text : String) (names : NameSet) :
    Ends text (signature text) (4 * (Utf8.encodeString text).length + 3) names (verdict text)
        (Signature.collect text names) ∧
      Ends text (descriptor text) (Utf8.encodeString text).length names (.ok ())
        (Descriptor.collect text names) :=
  ⟨ends_signature text names, ends_descriptor text names⟩

/-- A letter of two octets inside of a name, and then where a type should begin. -/
example : (run (signature "Lé;é") 40 {}).map
    (fun result => (result.1.toOption, result.2.position, result.2.names.toList)) =
      some (none, 4, ["é"]) := by
  decide +kernel

end DependencyAudit.TypeText.Descent
