import DeviceSuite.Artifact.Saves

/-!
# Saving many artifacts

The entry for a program that brings many artifacts to a desk and has them all saved.
-/

namespace DeviceSuite

/-- Bring all artifacts at once and save them all. -/
abbrev Rush.saveAll (desk : ArtifactDesk Nat) (artifacts : List (Context × Artifact)) :
    Pool Saves.Reply Saves.Receipt Nat Saves :=
  Saves.saveAll desk artifacts

end DeviceSuite
