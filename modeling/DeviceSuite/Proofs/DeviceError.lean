import DeviceSuite.DeviceError
import Mathlib.Data.List.Forall2
import Mathlib.Order.Nat

/-!
# The class of a message

A message is sorted by the phrases it has somewhere, whatever the case of its ASCII letters. So its
class depends on nothing but its letters, stays the same when the text of the error is sorted
again, and is not lowered by more text around the message. No error is both worth another attempt
and final.
-/

namespace DeviceSuite

namespace DeviceError

/-- One of the phrases stands somewhere in a text, with its ASCII letters in either case. -/
def Has (phrases : List String) (text : String) : Prop :=
  ∃ phrase ∈ phrases, ∃ before part after,
    text.toList = before ++ part ++ after ∧
      part.map Char.toLower = phrase.toList.map Char.toLower

/-- Texts that differ at most in the case of ASCII letters. -/
def SameLetters (text text' : String) : Prop :=
  List.Forall₂ (fun c d => d = c ∨ d = c.toLower ∨ d = c.toUpper) text.toList text'.toList

/-- How grave an error is: a fatal one most, one that may pass less, any other least. -/
def gravity : DeviceError → Nat
  | .fatal _ => 2
  | .transient _ => 1
  | .other _ | .stopped => 0

/-- The phrases are written in small letters, so no message in capitals escapes them. -/
theorem toLower_of_mem_phrases {phrase : String}
    (h : phrase ∈ fatalPhrases ∨ phrase ∈ transientPhrases) :
    phrase.toList.map Char.toLower = phrase.toList := by
  have hall : ∀ phrase ∈ fatalPhrases ++ transientPhrases,
      phrase.toList.map Char.toLower = phrase.toList := by decide
  exact hall phrase (List.mem_append.2 h)

/-- The test for a phrase finds it wherever it stands in a text. -/
theorem hasPhrase_iff (phrase text : List Char) :
    hasPhrase phrase text = true ↔ phrase <:+: text := by
  induction text with
  | nil => simp [hasPhrase]
  | cons c rest ih =>
    rw [hasPhrase, Bool.or_eq_true, List.isPrefixOf_iff_prefix, ih, List.infix_cons_iff]

/-- A message mentions one of the phrases if one stands in its lowered text. -/
theorem mentions_iff (phrases : List String) (message : String) :
    mentions phrases message = true ↔
      ∃ phrase ∈ phrases, phrase.toList <:+: message.toList.map Char.toLower := by
  simp only [mentions, List.any_eq_true, hasPhrase_iff]

/-- What is looked for in the small letters of a message is in the message itself. -/
theorem mentions_iff_has {phrases : List String} (message : String)
    (hlower : ∀ phrase ∈ phrases, phrase.toList.map Char.toLower = phrase.toList) :
    mentions phrases message = true ↔ Has phrases message := by
  rw [mentions_iff]
  constructor
  · intro h
    obtain ⟨phrase, hmem, hinfix⟩ := h
    obtain ⟨part, hpart, heq⟩ := List.infix_map_iff.1 hinfix
    obtain ⟨before, after, hsplit⟩ := hpart
    exact ⟨phrase, hmem, before, part, after, hsplit.symm, by rw [hlower phrase hmem, heq]⟩
  · intro h
    obtain ⟨phrase, hmem, before, part, after, hsplit, heq⟩ := h
    rw [hlower phrase hmem] at heq
    exact ⟨phrase, hmem, List.infix_map_iff.2 ⟨part, ⟨before, after, hsplit.symm⟩, heq.symm⟩⟩

/-- A message is fatal exactly if it has a fatal phrase. -/
theorem isFatalMessage_iff (message : String) :
    isFatalMessage message = true ↔ Has fatalPhrases message :=
  mentions_iff_has message fun _ hmem => toLower_of_mem_phrases (.inl hmem)

/-- A message mentions a transient phrase exactly if it has one. -/
theorem mentions_transient_iff (message : String) :
    mentions transientPhrases message = true ↔ Has transientPhrases message :=
  mentions_iff_has message fun _ hmem => toLower_of_mem_phrases (.inr hmem)

/-- A text around a message keeps the phrases of the message. -/
theorem Has.append {phrases : List String} {message : String} (h : Has phrases message)
    (before after : String) : Has phrases (before ++ message ++ after) := by
  obtain ⟨phrase, hmem, front, part, back, hsplit, heq⟩ := h
  refine ⟨phrase, hmem, before.toList ++ front, part, back ++ after.toList, ?_, heq⟩
  simp only [String.toList_append, hsplit, List.append_assoc]

/-- What holds of each of the 26 letters from a first one on holds of a letter between them. -/
theorem of_letters {P : Char → Prop} {first : Nat} (h : ∀ k : Fin 26, P (Char.ofNat (first + k)))
    {c : Char} (hle : first ≤ c.toNat) (hlt : c.toNat < first + 26) : P c := by
  have hletter := h ⟨c.toNat - first, by omega⟩
  rwa [Nat.add_sub_cancel' hle, Char.ofNat_toNat] at hletter

/-- The small letter of a capital is the one that the capital was made of. -/
theorem toLower_toUpper (c : Char) : c.toUpper.toLower = c.toLower := by
  have hsmall : ∀ k : Fin 26,
      (Char.ofNat (97 + k)).toUpper.toLower = (Char.ofNat (97 + k)).toLower := by decide
  by_cases h : 97 ≤ c.toNat ∧ c.toNat ≤ 122
  · exact of_letters (P := fun c => c.toUpper.toLower = c.toLower) hsmall h.1 (by omega)
  · have hsame : c.toUpper = c := dif_neg h
    rw [hsame]

/-- A small letter has no smaller one. -/
theorem toLower_toLower (c : Char) : c.toLower.toLower = c.toLower := by
  have hcapital : ∀ k : Fin 26,
      (Char.ofNat (65 + k)).toLower.toLower = (Char.ofNat (65 + k)).toLower := by decide
  by_cases h : 65 ≤ c.toNat ∧ c.toNat ≤ 90
  · exact of_letters (P := fun c => c.toLower.toLower = c.toLower) hcapital h.1 (by omega)
  · have hsame : c.toLower = c := dif_neg h
    rw [hsame, hsame]

/-- Both cases of a letter have the same small letter. -/
theorem toLower_eq_of_sameLetter {c d : Char} (h : d = c ∨ d = c.toLower ∨ d = c.toUpper) :
    d.toLower = c.toLower := by
  rcases h with rfl | rfl | rfl
  · rfl
  · exact toLower_toLower c
  · exact toLower_toUpper c

/-- Texts with the same letters are lowered to the same text. -/
theorem SameLetters.toLower_eq {text text' : String} (h : SameLetters text text') :
    text'.toList.map Char.toLower = text.toList.map Char.toLower := by
  unfold SameLetters at h
  generalize text.toList = letters at h
  generalize text'.toList = letters' at h
  induction h with
  | nil => rfl
  | cons hletter _ ih => rw [List.map_cons, List.map_cons, toLower_eq_of_sameLetter hletter, ih]

/-- Texts with the same letters mention the same phrases. -/
theorem SameLetters.mentions_eq {text text' : String} (h : SameLetters text text')
    (phrases : List String) : mentions phrases text' = mentions phrases text := by
  simp only [mentions, h.toLower_eq]

/-- The class of a message by the phrases it has. -/
theorem gravity_classify (message : String) :
    (classify message).gravity =
      if isFatalMessage message then 2 else if mentions transientPhrases message then 1 else 0 := by
  rw [classify, isTransientMessage]
  cases isFatalMessage message <;> cases mentions transientPhrases message <;> rfl

/-- A message with a fatal phrase is gravest. -/
theorem gravity_classify_of_fatal {message : String} (h : Has fatalPhrases message) :
    (classify message).gravity = 2 := by
  rw [gravity_classify, if_pos ((isFatalMessage_iff message).2 h)]

/-- A message with a transient phrase is not the least grave. -/
theorem one_le_gravity_classify {message : String} (h : Has transientPhrases message) :
    1 ≤ (classify message).gravity := by
  rw [gravity_classify, if_pos ((mentions_transient_iff message).2 h)]
  split <;> omega

/-- More text around a message does not lower its class. -/
theorem gravity_classify_le_append (before message after : String) :
    (classify message).gravity ≤ (classify (before ++ message ++ after)).gravity := by
  rw [gravity_classify message]
  split
  · next hfatal =>
    have hwhole := ((isFatalMessage_iff message).1 hfatal).append before after
    exact (gravity_classify_of_fatal hwhole).ge
  · split
    · next htransient =>
      exact one_le_gravity_classify
        (((mentions_transient_iff message).1 htransient).append before after)
    · exact Nat.zero_le _

/-- The text of an error has the class of the error: what is put in front of a fatal message
cannot make it less than fatal. -/
theorem gravity_classify_text (message : String) :
    (classify (classify message).text).gravity = (classify message).gravity := by
  by_cases hfatal : isFatalMessage message = true
  · have hhas : Has fatalPhrases ("session terminated: " ++ message ++ "") :=
      ((isFatalMessage_iff message).1 hfatal).append _ _
    rw [String.append_empty] at hhas
    have hclass : classify message = .fatal message := by rw [classify, if_pos hfatal]
    rw [hclass]
    exact gravity_classify_of_fatal hhas
  · have htext : (classify message).text = message := by
      rw [classify, if_neg hfatal]
      split <;> rfl
    rw [htext]

/-- A message is classified as fatal exactly if it has a fatal phrase. -/
theorem classify_eq_fatal_iff (message : String) :
    classify message = .fatal message ↔ Has fatalPhrases message := by
  rw [← isFatalMessage_iff, classify]
  cases isFatalMessage message <;> cases isTransientMessage message <;> simp

/-- A message is classified as transient exactly if it has a transient phrase and no fatal one. -/
theorem classify_eq_transient_iff (message : String) :
    classify message = .transient message ↔
      ¬ Has fatalPhrases message ∧ Has transientPhrases message := by
  rw [← isFatalMessage_iff, ← mentions_transient_iff, classify, isTransientMessage]
  cases isFatalMessage message <;> cases mentions transientPhrases message <;> simp

/-- A message is classified as neither exactly if it has no phrase of either kind. -/
theorem classify_eq_other_iff (message : String) :
    classify message = .other message ↔
      ¬ Has fatalPhrases message ∧ ¬ Has transientPhrases message := by
  rw [← isFatalMessage_iff, ← mentions_transient_iff, classify, isTransientMessage]
  cases isFatalMessage message <;> cases mentions transientPhrases message <;> simp

/-- The class does not depend on the case of letters. -/
theorem SameLetters.gravity_eq {message message' : String} (h : SameLetters message message') :
    (classify message').gravity = (classify message).gravity := by
  rw [gravity_classify, gravity_classify, isFatalMessage, isFatalMessage, h.mentions_eq,
    h.mentions_eq]

/-- What is retried by its class is what is retried by its message. -/
theorem isRetryable_classify (message : String) :
    (classify message).isRetryable = isTransientMessage message := by
  rw [classify]
  cases hfatal : isFatalMessage message <;> cases htransient : isTransientMessage message <;>
    simp_all [isRetryable, isTransientMessage]

/-- What is fatal by its class is what is fatal by its message. -/
theorem isFatal_classify (message : String) :
    (classify message).isFatal = isFatalMessage message := by
  rw [classify]
  cases hfatal : isFatalMessage message <;> cases htransient : isTransientMessage message <;>
    simp_all [isFatal]

/-- No error is both worth another attempt and final, however it came about. -/
theorem not_isRetryable_and_isFatal (e : DeviceError) :
    ¬ (e.isRetryable = true ∧ e.isFatal = true) := by
  intro h
  cases e with
  | transient _ => simp [isFatal] at h
  | fatal _ => simp [isRetryable] at h
  | other message =>
    simp only [isRetryable, isFatal, isTransientMessage, Bool.and_eq_true] at h
    rw [h.2] at h
    exact absurd h.1.1 (by decide)
  | stopped => simp [isRetryable] at h

/-- Sorting gives each of the three classes by the phrases of the message, fatal ones first; the
class does not depend on the case of letters, the text of the error has it again, and more text
around a message does not lower it. The error is worth another attempt or final as the message
says, and no error is both. -/
theorem classify_stable (message : String) :
    (classify message = .fatal message ↔ Has fatalPhrases message) ∧
    (classify message = .transient message ↔
      ¬ Has fatalPhrases message ∧ Has transientPhrases message) ∧
    (classify message = .other message ↔
      ¬ Has fatalPhrases message ∧ ¬ Has transientPhrases message) ∧
    (∀ message', SameLetters message message' →
      (classify message').gravity = (classify message).gravity) ∧
    (classify (classify message).text).gravity = (classify message).gravity ∧
    (∀ before after,
      (classify message).gravity ≤ (classify (before ++ message ++ after)).gravity) ∧
    (classify message).isRetryable = isTransientMessage message ∧
    (classify message).isFatal = isFatalMessage message ∧
    ∀ e : DeviceError, ¬ (e.isRetryable = true ∧ e.isFatal = true) :=
  ⟨classify_eq_fatal_iff message, classify_eq_transient_iff message, classify_eq_other_iff message,
    fun _ hsame => hsame.gravity_eq, gravity_classify_text message,
    fun before after => gravity_classify_le_append before message after,
    isRetryable_classify message, isFatal_classify message, not_isRetryable_and_isFatal⟩

/-- A message with a fatal phrase and a transient one, and the same in other letters. -/
theorem classify_stable_offline :
    SameLetters "Device OFFLINE, Timeout" "device offline, TIMEOUT" ∧
      (classify "device offline, TIMEOUT").gravity =
        (classify "Device OFFLINE, Timeout").gravity := by
  have hsame : SameLetters "Device OFFLINE, Timeout" "device offline, TIMEOUT" := by
    unfold SameLetters
    simp
  exact ⟨hsame, (classify_stable "Device OFFLINE, Timeout").2.2.2.1 _ hsame⟩

end DeviceError

end DeviceSuite
