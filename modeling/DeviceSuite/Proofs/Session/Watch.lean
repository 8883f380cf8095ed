import DeviceSuite.Proofs.Run.Rules
import DeviceSuite.Proofs.Session.Numbers

/-!
# Accords in a session

An accord that the tasks of a run would observe from the beginning is observed for as long as its
run is under way, in every history: `Underway.observed`. What the accord keeps true of the books is
then true of the run in every state of the session, and the books grow from one state to the next.
-/

namespace DeviceSuite

namespace Accord

variable {σ : Type} {run : RunState} {n : Nat}

/-- An accord is observed in a session: the books are as it wants them, and its tasks abide by
it. -/
def Observed (A : Accord run n) (s : Session σ) (calls : Calls) (b : Books) : Prop :=
  (A.company (σ := σ)).sees (s.world, calls) b ∧ (A.company (σ := σ)).Together s.pool.strands b

/-- The tasks of a run observe an accord from the beginning of the run, wherever and with whichever
settings it is begun. -/
structure Joined (A : Accord run n) (scenarios : List Graph) : Prop where
  blank : A.keeps (.blank run)
  lead : ∀ {b}, (A.terms (.lead n)).drifts (.blank run) b →
    (RunTask.lead run).Abides (A.terms (.lead n))
      (fun b r => A.ends (.lead n) b (r.map .lead)) b
  tour : ∀ {t : Tour} {place b}, t.run = run → t.scenarios = scenarios →
    run.request.deviceIds[place]? = some t.deviceId → t.place = place + 1 →
    (A.terms (.tour n place t.deviceId)).drifts (.blank run) b →
    A.may (.tour n place t.deviceId) b .begun ∧
    ∀ {b'}, (A.terms (.tour n place t.deviceId)).drifts
        (b.note (.tour n place t.deviceId) .begun) b' →
      t.conduct.Abides (A.terms (.tour n place t.deviceId))
        (fun b r => b.Open run (.tour n place t.deviceId) ∧
          A.ends (.tour n place t.deviceId) b (r.map .tour)) b'

variable {A : Accord run n} {s s' : Session σ} {calls more : Calls} {b : Books}

/-- A task abides by its terms with what it ends with if it does so with what that is made of. -/
theorem abides_map {α β : Type} {t : RunTask α} {f : α → β} {T : Terms RunCall.Reply Books}
    {Q : Books → Option β → Prop} (h : t.Abides T (fun b r => Q b (r.map f)) b) :
    (do return f (← t) : RunTask β).Abides T Q b := by
  apply Task.abides_bind.2
  apply h.mono
  intro b r hr
  cases r <;> exact hr

/-- The tasks of a run that begins abide by an accord that they observe. -/
theorem Joined.together {scenarios : List Graph} (h : A.Joined scenarios) (s : Session σ)
    (hn : n = s.world.registry.runs.length) :
    (A.company (σ := σ)).Together (s.newStrands run scenarios) (.blank run) := by
  refine ⟨s.newStrands_labels scenarios run, ?_⟩
  intro e he
  have hrun : e.1.run = n := hn ▸ Session.newStrands_run scenarios he
  rw [company_terms hrun]
  subst hn
  obtain rfl | ⟨place, id, hid, rfl⟩ := Session.mem_newStrands scenarios he
  · exact fun b hd => abides_map ((h.lead hd).mono fun b r hr _ => ⟨trivial, hr⟩)
  · intro b hd
    obtain ⟨hmay, hconduct⟩ :=
      h.tour (t := ⟨_, _, run, scenarios, id, place + 1⟩) rfl rfl hid rfl hd
    apply admits ⟨hd.1.still (Books.blank_open hid), RunCall.steady_of_changes rfl, hmay⟩
    intro b' reply hd' _ _ _
    exact abides_map ((hconduct hd').mono fun b r hr _ => hr)

/-- A turn of any strand keeps an accord observed. -/
theorem Observed.takeTurn (h : A.Observed s calls b) {i : Nat}
    (able : s.pool.isAble s.host i = true) :
    ∃ b', A.Observed (s.takeTurn i) (calls ++ s.callsOfTurn i) b' ∧ A.grows b b' := by
  obtain ⟨l, strand, hi, able, hworld, hstrands, hcalls⟩ := Session.takeTurn_spec able
  have hable : s.host.recorded.isAble (s.world, calls) l strand = true :=
    (s.host.recorded_isAble _ l strand).trans able
  obtain ⟨b', hsees, habides, hallows⟩ := (hosted A s.plan.service).resume hable
    (h.2.2 _ (List.mem_of_getElem? hi)) h.1
  have hresume := s.host.recorded_resume l strand s.world calls
  change Books.Of n (s.host.recorded.resume l strand (s.world, calls)).1 b' ∧ _ at hsees
  change ((s.host.recorded.resume l strand (s.world, calls)).2).Abides _ _ b' at habides
  rw [hresume] at hsees habides
  refine ⟨b', ⟨?_, ?_⟩, hallows.2⟩
  · rw [hworld, hcalls]
    exact hsees
  · rw [hstrands]
    exact h.2.set hi hallows habides

/-- What raises a stop flag at most keeps an accord observed. -/
theorem Observed.near {w : World σ} (h : A.Observed s calls b) (hnear : b.Near n (w, calls))
    (hw : s'.world = w) (hstrands : s'.pool.strands = s.pool.strands) :
    ∃ b', A.Observed s' calls b' ∧ A.grows b b' := by
  obtain ⟨⟨-, hs, hk⟩, htogether⟩ := h
  rcases hnear with hof | hof
  · exact ⟨b, ⟨⟨hw ▸ hof, hs, hk⟩, hstrands ▸ htogether⟩, A.grows_refl b⟩
  · refine ⟨b.raise, ⟨⟨hw ▸ hof, (b.spares_raise run (.lead n)).sound hs, (A.raise b).1 hk⟩, ?_⟩,
      (A.raise b).2.1⟩
    apply hstrands ▸ htogether.drift
    intro e _
    by_cases he : e.1.run = n
    · rw [company_terms he]
      exact drifts_raise e.1 b
    · rw [company_terms_of_ne he]
      trivial

/-- The launch of another run keeps an accord observed. -/
theorem Observed.launch (hn : s.Numbered) (h : A.Observed s calls b)
    (suiteId suiteName : String) (request : Request) (scenarios : List Graph) :
    A.Observed (s.launch suiteId suiteName request scenarios).1 calls b := by
  obtain ⟨⟨hof, hs, hk⟩, htogether⟩ := h
  have hrun : n < s.world.registry.runs.length := (List.getElem?_eq_some_iff.1 hof.1).1
  have hcrew : n < s.world.crews.length := (List.getElem?_eq_some_iff.1 hof.2.1).1
  have hfree : ∀ e ∈ s.newStrands (s.newRun suiteId suiteName request) scenarios, e.1.run ≠ n :=
    fun e he => Session.newStrands_run scenarios he ▸ (Nat.ne_of_lt hrun).symm
  refine ⟨⟨⟨(Session.run?_launch_of_lt s _ _ _ _ hrun).trans hof.1,
    (Session.crew?_launch_of_lt s _ _ _ _ hcrew).trans hof.2.1, hof.2.2.1, ?_⟩, hs, hk⟩, ?_⟩
  · intro e he hnumber
    rw [Session.world_launch] at he
    rcases Registry.mem_insert_add he with rfl | he
    · exact absurd hnumber (Nat.ne_of_gt hrun)
    · exact hof.2.2.2 e he hnumber
  · have hmore : (A.company (σ := σ)).Together
        (s.newStrands (s.newRun suiteId suiteName request) scenarios) b := by
      refine ⟨s.newStrands_labels scenarios _, ?_⟩
      intro e he
      rw [company_terms_of_ne (hfree e he)]
      exact Strand.abides_free (fun _ _ hl => absurd hl (hfree e he)) _ _
    rw [Session.strands_launch]
    exact htogether.append hmore fun e he => hn.not_mem_newStrands he

/-- Whatever happens next in a session keeps an accord observed. -/
theorem Observed.next (hn : s.Numbered) (h : A.Observed s calls b) (hnext : s.Next more s') :
    ∃ b', A.Observed s' (calls ++ more) b' ∧ A.grows b b' := by
  have hof := h.1.1
  cases hnext with
  | turn able => exact h.takeTurn able
  | clock time =>
    rw [List.append_nil]
    exact h.near (w := { s.world with now := time }) (.inl (hof.congr rfl rfl fun _ h => h)) rfl rfl
  | stop runId =>
    rw [List.append_nil]
    exact h.near (Books.Near.stop (.inl hof) runId) rfl rfl
  | stopRun number =>
    rw [List.append_nil]
    exact h.near (Books.Near.requestStop (.inl hof) number) rfl rfl
  | launch suiteId suiteName accepted =>
    rw [List.append_nil]
    exact ⟨b, h.launch hn suiteId suiteName _ _, A.grows_refl b⟩
  | release number =>
    rw [List.append_nil]
    exact ⟨b, h, A.grows_refl b⟩
  | insertScenario g =>
    rw [List.append_nil]
    exact ⟨b, h, A.grows_refl b⟩
  | removeScenario id =>
    rw [List.append_nil]
    exact ⟨b, h, A.grows_refl b⟩
  | disconnect id =>
    rw [List.append_nil]
    exact ⟨b, h, A.grows_refl b⟩

/-- A whole history keeps an accord observed. -/
theorem Observed.history (hn : s.Numbered) (h : A.Observed s calls b)
    (hhistory : s.History more s') :
    s'.Numbered ∧ ∃ b', A.Observed s' (calls ++ more) b' ∧ A.grows b b' := by
  induction hhistory with
  | refl => exact ⟨hn, b, by simpa using h, A.grows_refl b⟩
  | step _ hnext ih =>
    obtain ⟨hn', b', h', hgrows⟩ := ih
    obtain ⟨b'', h'', hgrows'⟩ := h'.next hn' hnext
    exact ⟨hn'.next hnext, b'', by simpa [List.append_assoc] using h'',
      A.grows_trans hgrows hgrows'⟩

/-- The launch of a run whose tasks observe an accord. -/
theorem Joined.observed {request : Request} {scenarios : List Graph} {suiteId suiteName : String}
    {A : Accord (s.newRun suiteId suiteName request) s.world.registry.runs.length}
    (h : A.Joined scenarios) (hs : s.Numbered) :
    A.Observed (s.launch suiteId suiteName request scenarios).1 []
      (.blank (s.newRun suiteId suiteName request)) := by
  refine ⟨⟨⟨Session.run?_launch s _ _ _ _, hs.crew?_launch _ _ _ _, rfl, ?_⟩,
    Books.blank_sound _, h.blank⟩, ?_⟩
  · intro e he hnumber
    rw [Session.world_launch] at he
    rcases Registry.mem_insert_add he with rfl | he
    · exact List.mem_singleton_self _
    · exact absurd hnumber (Nat.ne_of_lt (hs.listed e he))
  · have hold : (A.company (σ := σ)).Together s.pool.strands
        (.blank (s.newRun suiteId suiteName request)) := by
      refine ⟨hs.labels, ?_⟩
      intro e he
      have hne : e.1.run ≠ s.world.registry.runs.length :=
        Nat.ne_of_lt (hs.runs e.1 (List.mem_map_of_mem he))
      rw [company_terms_of_ne hne]
      exact Strand.abides_free (fun _ _ hl => absurd hl hne) _ _
    rw [Session.strands_launch]
    exact hold.append (h.together s rfl) fun e he => hs.not_mem_newStrands he

end Accord

namespace Session

variable {σ : Type} {s s' : Session σ} {calls more : Calls} {n : Nat} {request : Request}
  {scenarios : List Graph}

/-- The result of a run is in its books. -/
theorem result?_of_books {b : Books} (h : b.Of n (s.world, calls)) :
    s.result? n = b.crew.result := by
  have hcrew : s.world.crew? n = some b.crew := h.2.1
  rw [result?, hcrew, Option.bind_some]

/-- What is true of a run when it begins, and remains so whatever happens next, is true while the
run is under way. -/
theorem Underway.remains {P : RunState → Session σ → Calls → Prop}
    (hu : Underway s calls n request scenarios)
    (launch : ∀ {s : Session σ} (suiteId suiteName : String), Opened s →
      s.world.registry.runs.length = n → P (s.newRun suiteId suiteName request)
        (s.launch suiteId suiteName request scenarios).1 [])
    (next : ∀ {run : RunState} {s s' : Session σ} {calls more : Calls}, P run s calls →
      Next s more s' → P run s' (calls ++ more)) :
    ∃ runId suiteId suiteName startedAt,
      P (.new runId suiteId suiteName request startedAt) s calls := by
  induction hu with
  | launch suiteId suiteName hopened hcheck =>
    exact ⟨_, suiteId, suiteName, _, launch suiteId suiteName hopened rfl⟩
  | next _ hnext ih =>
    obtain ⟨runId, suiteId, suiteName, startedAt, h⟩ := ih launch
    exact ⟨runId, suiteId, suiteName, startedAt, next h hnext⟩

/-- The tasks of a run observe every accord that they would observe from the beginning. -/
def Watched (s : Session σ) (calls : Calls) (n : Nat) (scenarios : List Graph) (run : RunState) :
    Prop :=
  s.Numbered ∧ ∀ A : Accord run n, A.Joined scenarios → ∃ b, A.Observed s calls b

/-- A run that is launched is watched. -/
theorem Opened.watched_launch (ho : Opened s) (suiteId suiteName : String) :
    (s.launch suiteId suiteName request scenarios).1.Watched [] s.world.registry.runs.length
      scenarios (s.newRun suiteId suiteName request) :=
  ⟨ho.numbered.launch suiteId suiteName _ _, fun _ hA => ⟨_, hA.observed ho.numbered⟩⟩

/-- A run stays watched whatever happens next. -/
theorem Watched.next {run : RunState} (h : s.Watched calls n scenarios run)
    (hnext : Next s more s') : s'.Watched (calls ++ more) n scenarios run := by
  refine ⟨h.1.next hnext, fun A hA => ?_⟩
  obtain ⟨b, hb⟩ := h.2 A hA
  obtain ⟨b', hb', -⟩ := hb.next h.1 hnext
  exact ⟨b', hb'⟩

/-- An accord that the tasks of a run observe from the beginning is observed while the run is under
way. -/
theorem Underway.observed (hu : Underway s calls n request scenarios) :
    s.Numbered ∧ ∃ runId suiteId suiteName startedAt,
      ∀ A : Accord (.new runId suiteId suiteName request startedAt) n,
        A.Joined scenarios → ∃ b, A.Observed s calls b := by
  obtain ⟨runId, suiteId, suiteName, startedAt, hn, h⟩ := hu.remains
    (P := fun run s calls => s.Watched calls n scenarios run)
    (fun suiteId suiteName ho hn => hn ▸ ho.watched_launch suiteId suiteName)
    (fun h hnext => h.next hnext)
  exact ⟨hn, runId, suiteId, suiteName, startedAt, h⟩

/-- The request of a run under way was checked when the run was begun. -/
theorem Underway.checked (hu : Underway s calls n request scenarios) :
    ∃ before : Session σ, before.check request = .ok scenarios := by
  induction hu with
  | launch suiteId suiteName _ hcheck => exact ⟨_, hcheck⟩
  | next _ _ ih => exact ih

end Session

end DeviceSuite
