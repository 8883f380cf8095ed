import DeviceSuite.Run.World

/-!
# What calls change

The beginning of a call raises stop flags at most, besides what it does to the devices. Its end
changes the part of the world that the call is about, and nothing else. What a call leaves alone is
read off here, so nobody else looks into the answers.
-/

namespace DeviceSuite

namespace World

variable {σ : Type}

/-- What the end of a call may make of a world. -/
inductive Answers (w : World σ) (l : Role) : RunCall → World σ → Prop where
  | device {c : DeviceCall} (devices : TextMap σ) :
    Answers w l (.device c) { w with devices := devices }
  | unsaved {context : Context} {artifact : Artifact} : w.desk = none →
    Answers w l (.save context artifact) w
  | saved {context : Context} {artifact : Artifact} {desk : ArtifactDesk Role} :
    w.desk = some desk → Answers w l (.save context artifact)
      { w with desk := some (desk.save l context artifact).1 }
  | startVideo {context : Context} :
    Answers w l (.startVideo context) { w with recorder := (w.recorder.start context).1 }
  | stopVideo {context : Context} :
    Answers w l (.stopVideo context) { w with recorder := (w.recorder.stop context).1 }
  | emit {e : Event} : Answers w l (.emit e) { w with events := w.events ++ [(w.now, e)] }
  | update {f : RunState → RunState} : Answers w l (.update f) (w.updateRun l.run f)
  | register {context : Context} :
    Answers w l (.register context) (w.updateSink (·.register context))
  | unregister {context : Context} :
    Answers w l (.unregister context) (w.updateSink (·.unregister context))
  | archive {result : SuiteResult} :
    Answers w l (.archive result) { w with archive := w.archive.keep result }
  | retire (active : List (String × Nat)) : active ⊆ w.registry.active →
    Answers w l .retire { w with registry := { w.registry with active := active } }
  | progress : Answers w l .progress w
  | begun : Answers w l .begun w
  | tours : Answers w l .tours w

variable (service : Service DeviceCall.Reply σ) (w : World σ) (l : Role) (c : RunCall)

/-- The end of a call changes what the call is about, and nothing else. -/
theorem answers : w.Answers l c (w.answer service l c).1 := by
  cases c with
  | device c =>
    simp only [answer, answerDevice]
    split
    · exact .device w.devices
    · exact .device _
  | save context artifact =>
    simp only [answer, save]
    split
    · next hdesk => exact .unsaved hdesk
    · next desk hdesk => exact .saved hdesk
  | retire =>
    simp only [answer]
    split
    · exact .retire w.registry.active (List.Subset.refl _)
    · exact .retire _ fun _ he => (List.mem_filter.1 he).1
  | startVideo context => exact .startVideo
  | stopVideo context => exact .stopVideo
  | emit e => exact .emit
  | update f => exact .update
  | register context => exact .register
  | unregister context => exact .unregister
  | archive result => exact .archive
  | progress => exact .progress
  | begun => exact .begun
  | tours => exact .tours

variable {w} in
/-- The beginning of a call keeps what has nothing to do with the states of the devices and what no
signal of theirs spoils. -/
theorem accept_keeps {P : World σ → Prop}
    (hdevices : ∀ (w : World σ) devices, P w → P { w with devices := devices })
    (hheed : ∀ (w : World σ) signal, P w → P (w.heed signal)) (h : P w) :
    P (w.accept service l c).1 := by
  cases c with
  | device c =>
    simp only [accept, acceptDevice]
    split
    · exact h
    · exact List.foldlRecOn (motive := P) _ _ (hdevices w _ h) fun w hw signal _ => hheed w signal hw
  | _ => exact h

/-- The beginning of a call touches the registry, the devices and what they have looked at, and
nothing else. -/
theorem accept_eq : ∃ registry devices snapshots, (w.accept service l c).1 =
    { w with registry := registry, devices := devices, snapshots := snapshots } := by
  apply accept_keeps (P := fun w' : World σ => ∃ registry devices snapshots,
    w' = { w with registry := registry, devices := devices, snapshots := snapshots })
  · rintro _ devices ⟨_, _, _, rfl⟩
    exact ⟨_, _, _, rfl⟩
  · rintro _ signal ⟨_, _, _, rfl⟩
    cases signal <;> exact ⟨_, _, _, rfl⟩
  · exact ⟨_, _, _, rfl⟩

variable {w l c} {w' : World σ}

/-- An answer takes no time. -/
theorem Answers.now_eq (h : w.Answers l c w') : w'.now = w.now := by
  cases h <;> rfl

/-- An answer does not touch the crews. -/
theorem Answers.crews_eq (h : w.Answers l c w') : w'.crews = w.crews := by
  cases h <;> rfl

/-- Only a change of a run has to do with the states of the runs. -/
theorem Answers.runs_eq (h : w.Answers l c w') (hc : ∀ f, c ≠ .update f) :
    w'.registry.runs = w.registry.runs := by
  cases h with
  | update => exact absurd rfl (hc _)
  | _ => rfl

/-- No call makes a run active. -/
theorem Answers.active_subset (h : w.Answers l c w') :
    w'.registry.active ⊆ w.registry.active := by
  cases h with
  | retire active hactive => exact hactive
  | _ => exact List.Subset.refl _

/-- Only saves and what is said of the devices that attend have to do with the desk. -/
theorem Answers.desk_eq (h : w.Answers l c w') (hsave : ∀ context artifact, c ≠ .save context artifact)
    (hregister : ∀ context, c ≠ .register context)
    (hunregister : ∀ context, c ≠ .unregister context) : w'.desk = w.desk := by
  cases h with
  | saved => exact absurd rfl (hsave _ _)
  | register => exact absurd rfl (hregister _)
  | unregister => exact absurd rfl (hunregister _)
  | _ => rfl

end World

end DeviceSuite
