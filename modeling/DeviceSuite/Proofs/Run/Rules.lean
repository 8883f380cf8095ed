import DeviceSuite.Proofs.Run.Accord

/-!
# Rules for the tasks of a run

How a task under an accord comes through its calls. A call that is answered at once leaves no room
for the others; while another is under way, they may do what the terms let them.
-/

namespace DeviceSuite

namespace Accord

variable {run : RunState} {n : Nat} {A : Accord run n} {l : Role} {b : Books} {c : RunCall}

/-- A call begins in the books as they are, and is answered when the others have done what they
may. -/
theorem admits {Q : Books → Option c.Reply → Prop} (hmay : (A.terms l).may b c)
    (hQ : ∀ b' reply, (A.terms l).drifts (b.note l c) b' → (c.pace.lasts = false → b' = b.note l c) →
      (c = .tours → b.crew.isComplete = true) → b'.Replies c reply → Q (b'.answered l c) reply) :
    (A.terms l).Admits c Q b := by
  refine ⟨hmay, ?_⟩
  intro b₁ b₂ reply b₃ hbegins hlasts hanswers
  obtain ⟨hb₁, htours⟩ := hbegins
  obtain ⟨rfl, hreply⟩ := hanswers
  rcases hb₁ with rfl | ⟨hp, rfl⟩
  · have hinstant : c.pace.lasts = false → b₂ = b.note l c := fun hp => by
      have hp' : ((A.terms l).pace c).lasts = false := hp
      simpa [Terms.lasts, hp'] using hlasts
    exact hQ b₂ reply (Terms.drifts_of_lasts hlasts) hinstant htours hreply
  · exact hQ b₂ reply ((A.terms l).drifts_trans (drifts_raise l _) (Terms.drifts_of_lasts hlasts))
      (fun hp' => by rw [hp] at hp'; cases hp') htours hreply

/-- A call that is answered at once. -/
theorem abides_instant {Q : Books → Option c.Reply → Prop} (hp : c.pace = .instant)
    (hmay : (A.terms l).may b c)
    (hQ : ∀ reply, (b.note l c).Replies c reply → Q ((b.note l c).answered l c) reply) :
    (Task.ask c).Abides (A.terms l) Q b := by
  apply Task.abides_ask.2
  intro b' hw
  have hp' : (A.terms l).pace c = .instant := hp
  obtain rfl : b' = b := by simpa [Terms.waits, hp', Pace.waits] using hw
  have hlasts : c.pace.lasts = false := by rw [hp]; rfl
  exact admits hmay fun b₂ reply _ hb₂ _ hreply => hb₂ hlasts ▸ hQ reply (hb₂ hlasts ▸ hreply)

/-- A call that waits for its turn. -/
theorem abides_queued {Q : Books → Option c.Reply → Prop} (hp : c.pace.waits = true)
    (h : ∀ b', (A.terms l).drifts b b' → (A.terms l).may b' c ∧
      ∀ b'' reply, (A.terms l).drifts (b'.note l c) b'' →
        (c = .tours → b'.crew.isComplete = true) → b''.Replies c reply → Q b'' reply) :
    (Task.ask c).Abides (A.terms l) Q b := by
  apply Task.abides_ask.2
  intro b' hw
  obtain ⟨hmay, hQ⟩ := h b' (Terms.drifts_of_waits hw)
  apply admits hmay
  intro b₂ reply hd _ htours hreply
  have hinstant : c.pace ≠ .instant := by
    intro h
    rw [h] at hp
    cases hp
  rw [answered_of_pace hinstant]
  exact hQ b₂ reply hd htours hreply

/-- A call that waits for its turn and is answered as soon as it begins. -/
theorem abides_awaited {Q : Books → Option c.Reply → Prop} (hp : c.pace = .awaited)
    (h : ∀ b', (A.terms l).drifts b b' → (A.terms l).may b' c ∧
      ∀ reply, (c = .tours → b'.crew.isComplete = true) → (b'.note l c).Replies c reply →
        Q (b'.note l c) reply) :
    (Task.ask c).Abides (A.terms l) Q b := by
  apply Task.abides_ask.2
  intro b' hw
  obtain ⟨hmay, hQ⟩ := h b' (Terms.drifts_of_waits hw)
  apply admits hmay
  intro b₂ reply _ hinstant htours hreply
  obtain rfl := hinstant (by rw [hp]; rfl)
  rw [answered_of_pace (by rw [hp]; nofun)]
  exact hQ reply htours hreply

/-- What a task's own calls and the others keep, the task keeps. -/
theorem abides_only {α : Type} {t : RunTask α} {H : RunCall → Prop} {P : α → Prop}
    {J : Books → Prop} (ht : t.Only H P) (hb : J b)
    (hdrifts : ∀ b b', J b → (A.terms l).drifts b b' → J b')
    (hcall : ∀ c b, H c → J b → (A.terms l).may b c ∧ J ((b.note l c).answered l c)) :
    t.Abides (A.terms l) (Task.Upon J fun a b => P a ∧ J b) b := by
  apply ht.abides hdrifts _ hb
  intro c b hc hb
  obtain ⟨hmay, hnote⟩ := hcall c b hc hb
  apply admits hmay
  intro b' reply hd hinstant _ _
  by_cases hp : c.pace = .instant
  · exact hinstant (by rw [hp]; rfl) ▸ hnote
  · rw [answered_of_pace hp] at hnote ⊢
    exact hdrifts _ _ hnote hd

end Accord

namespace RunTask

/-- A call to the device of a task is a call of the task. -/
theorem abides_onDevice_ask {b : Books} {T : Terms RunCall.Reply Books} {c : DeviceCall}
    {Q : Books → Option c.Reply → Prop} (h : (Task.ask (RunCall.device c)).Abides T Q b) :
    (RunTask.onDevice (Task.ask c)).Abides T Q b := by
  apply Task.abides_embed
  apply Task.abides_along
  exact h.mono fun b r hr => by cases r <;> exact hr

end RunTask

end DeviceSuite
