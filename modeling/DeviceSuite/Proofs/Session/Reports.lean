import DeviceSuite.Proofs.Session.Ending
import DeviceSuite.Proofs.Session.Moves

/-!
# The reports of the tours

What comes of a tour is written down in the crew of its run when it ends, and nothing else is: the
reports of a crew are the ends of its tours.
-/

namespace DeviceSuite

namespace Session

variable {σ : Type} {s : Session σ} {m : Move}

/-- What has come of the tours is written down in the crews, place by place. -/
def Filed (s : Session σ) : Prop :=
  ∀ n crew, s.world.crew? n = some crew → ∀ place outcome, (place, outcome) ∈ crew.reports ↔
    ∃ id ending, (.tour n place id, .ended ending) ∈ s.pool.strands ∧
      outcome = RoleResult.tour? ending

/-- A change of a crew that leaves its reports alone leaves those of all crews alone. -/
theorem reports_modify (f : Crew → Crew) (hf : ∀ crew, (f crew).reports = crew.reports)
    (crews : List Crew) (n : Nat) :
    (crews.modify n f).map Crew.reports = crews.map Crew.reports := by
  apply List.ext_getElem?
  intro i
  rw [List.getElem?_map, List.getElem?_map, List.getElem?_modify]
  split <;> cases crews[i]? <;> simp [hf]

/-- Before a task ends, nothing of what it does is reported. -/
theorem reports_kept (service : Service DeviceCall.Reply σ) (l : Role)
    (reports : List (List (Nat × Option TourResult))) :
    (World.host service).Keeps l (fun _ => True)
      (fun w => w.crews.map Crew.reports = reports)
      (fun _ w => w.crews.map Crew.reports = reports)
      fun _ w => w.crews.map Crew.reports = reports := by
  have hcrews : ∀ {w w' : World σ}, (∀ n, w'.crew? n = w.crew? n) →
      w.crews.map Crew.reports = reports → w'.crews.map Crew.reports = reports :=
    fun h => List.ext_getElem? h ▸ id
  refine Host.keeps_of_parts (fun w c h => ?_) (fun w c => hcrews fun n => ?_)
    fun w c => hcrews fun n => ?_
  · cases c with
    | tours => exact (reports_modify Crew.start (fun _ => rfl) _ _).trans h
    | _ => exact h
  · exact w.accept_crew? service l c
  · exact w.answer_crew? service l c

/-- The ends of the strands after a turn are those before, and that of the strand whose turn it
was. -/
theorem mem_ended_set {strands : List (Role × Strand RunCall.Reply RoleResult)}
    (hnodup : (strands.map (·.1)).Nodup) {i : Nat} {l l' : Role}
    {strand strand' : Strand RunCall.Reply RoleResult} (hi : strands[i]? = some (l, strand))
    (hopen : strand.result? = none) {ending : Option RoleResult} :
    (l', .ended ending) ∈ strands.set i (l, strand') ↔
      l' = l ∧ strand' = .ended ending ∨ (l', .ended ending) ∈ strands := by
  constructor
  · intro hmem
    rcases Company.mem_set_label hnodup hi hmem with heq | ⟨hold, -⟩
    · cases heq
      exact .inl ⟨rfl, rfl⟩
    · exact .inr hold
  · rintro (⟨rfl, rfl⟩ | hmem)
    · exact List.mem_iff_getElem?.2 ⟨i, by simp [(List.getElem?_eq_some_iff.1 hi).1]⟩
    · obtain ⟨j, hj⟩ := List.getElem?_of_mem hmem
      refine List.mem_iff_getElem?.2 ⟨j, ?_⟩
      rw [List.getElem?_set_ne, hj]
      rintro rfl
      obtain ⟨-, rfl⟩ := Prod.mk.inj (Option.some.inj (hi.symm.trans hj))
      cases hopen

/-- The crew of a run has the reports that it had, and what has come of a tour that ended now. -/
def Reports (w : World σ) (n : Nat) (l : Role) (strand : Strand RunCall.Reply RoleResult)
    (crew : Crew) : Prop :=
  ∃ crew₀ added, w.crew? n = some crew₀ ∧ crew.reports = crew₀.reports ++ added ∧
    ∀ place outcome, (place, outcome) ∈ added ↔ ∃ id ending, .tour n place id = l ∧
      strand = .ended ending ∧ outcome = RoleResult.tour? ending

/-- A crew among crews with the same reports has its own. -/
theorem exists_crew_of_reports {w w₀ : World σ} {n : Nat} {crew : Crew}
    (hw : w.crews.map Crew.reports = w₀.crews.map Crew.reports) (hcrew : w.crews[n]? = some crew) :
    ∃ crew₀, w₀.crew? n = some crew₀ ∧ crew₀.reports = crew.reports := by
  have hmap := congrArg (·[n]?) hw
  simp only [List.getElem?_map, hcrew, Option.map_some] at hmap
  exact Option.map_eq_some_iff.1 hmap.symm

/-- Nothing is added to the reports when none of the tours of the run has ended now. -/
theorem Reports.same {w₀ : World σ} {n : Nat} {l : Role} {strand : Strand RunCall.Reply RoleResult}
    {crew : Crew} (h : ∃ crew₀, w₀.crew? n = some crew₀ ∧ crew₀.reports = crew.reports)
    (hnot : ∀ place id ending, .tour n place id = l → strand ≠ .ended ending) :
    Reports w₀ n l strand crew := by
  obtain ⟨crew₀, hcrew₀, hreports⟩ := h
  refine ⟨crew₀, [], hcrew₀, by rw [hreports, List.append_nil], fun place outcome => ?_⟩
  refine iff_of_false List.not_mem_nil ?_
  rintro ⟨id, ending, hl, hended, -⟩
  exact hnot place id ending hl hended

/-- A turn adds to the reports what has come of its tour. -/
theorem reports_of_leaves {service : Service DeviceCall.Reply σ} {l : Role} {w₀ w : World σ}
    {strand : Strand RunCall.Reply RoleResult} {n : Nat} {crew : Crew}
    (h : (World.host service).Leaves l
      (fun w => w.crews.map Crew.reports = w₀.crews.map Crew.reports)
      (fun _ w => w.crews.map Crew.reports = w₀.crews.map Crew.reports)
      (fun _ w => w.crews.map Crew.reports = w₀.crews.map Crew.reports) (w, strand))
    (hcrew : w.crews[n]? = some crew) : Reports w₀ n l strand crew := by
  cases strand with
  | ended ending =>
    obtain ⟨w', hw', rfl⟩ := h.2 ending rfl
    cases l with
    | lead m =>
      have hclosed := reports_modify (·.close (RoleResult.lead? ending)) (fun _ => rfl) w'.crews m
      exact .same (exists_crew_of_reports (hclosed.trans hw') hcrew) (by simp)
    | tour m p id =>
      have hmodify : (w'.crews.modify m (·.report p (RoleResult.tour? ending)))[n]? = some crew :=
        hcrew
      rw [List.getElem?_modify] at hmodify
      obtain ⟨crew', hcrew', hcrew⟩ := Option.map_eq_some_iff.1 hmodify
      have hbefore := exists_crew_of_reports hw' hcrew'
      by_cases hm : m = n
      · subst hm
        rw [if_pos rfl] at hcrew
        subst hcrew
        obtain ⟨crew₀, hcrew₀, hreports⟩ := hbefore
        refine ⟨crew₀, [(p, RoleResult.tour? ending)], hcrew₀, by rw [hreports]; rfl, ?_⟩
        intro place outcome
        simp [eq_comm]
      · rw [if_neg hm] at hcrew
        subst hcrew
        refine .same hbefore ?_
        rintro place id' ending' hl
        cases hl
        exact absurd rfl hm
  | ready task => exact .same (exists_crew_of_reports h.1 hcrew) (by simp)
  | resting due next => exact .same (exists_crew_of_reports h.1 hcrew) (by simp)
  | waiting c next => exact .same (exists_crew_of_reports h.1 hcrew) (by simp)
  | calling due c next => exact .same (exists_crew_of_reports h.1 hcrew) (by simp)

/-- What has come of the tours is still written down after any move. -/
theorem Filed.move {s' : Session σ} {minutes : Minutes} (h : s.Filed) (hn : s.Numbered)
    (hmoved : s.Moved s' minutes) : s'.Filed := by
  intro n crew hcrew place outcome
  cases hmoved with
  | @turn i l strand able turn found goes world strands minutes =>
    have hopen : strand.result? = none := by
      cases strand <;> first | rfl | cases goes
    have hstands : ∀ {strand : Strand RunCall.Reply RoleResult},
        strand.Stands (fun w : World σ => w.crews.map Crew.reports = s.world.crews.map Crew.reports)
          (fun _ w => w.crews.map Crew.reports = s.world.crews.map Crew.reports)
          (fun _ w => w.crews.map Crew.reports = s.world.crews.map Crew.reports) s.world := by
      intro strand
      cases strand <;> first | rfl | trivial
    have hleaves := ((reports_kept s.plan.service l _).resume goes strand.makes_any hstands).2
    obtain ⟨crew₀, added, hcrew₀, hreports, hadded⟩ :=
      reports_of_leaves hleaves (world ▸ hcrew : _)
    rw [hreports, List.mem_append, h n crew₀ hcrew₀, hadded, strands]
    simp only [mem_ended_set hn.labels found hopen]
    constructor
    · rintro (⟨id, ending, hmem, hout⟩ | ⟨id, ending, hl, hended, hout⟩)
      · exact ⟨id, ending, .inr hmem, hout⟩
      · exact ⟨id, ending, .inl ⟨hl, hended⟩, hout⟩
    · rintro ⟨id, ending, ⟨hl, hended⟩ | hmem, hout⟩
      · exact .inr ⟨id, ending, hl, hended, hout⟩
      · exact .inl ⟨id, ending, hmem, hout⟩
  | aside more added strands new runs crews blank desk minutes =>
    have hended : ∀ {l ending}, (l, .ended ending) ∈ s'.pool.strands ↔
        (l, .ended ending) ∈ s.pool.strands := by
      intro l ending
      rw [strands, List.mem_append, or_iff_left]
      intro hmem
      cases (new _ hmem).2
    simp only [hended]
    have hcrew' : (s.world.crews ++ added)[n]? = some crew := crews ▸ hcrew
    rw [List.getElem?_append] at hcrew'
    split at hcrew'
    · exact h n crew hcrew' place outcome
    · next hlt =>
      rw [blank crew (List.mem_of_getElem? hcrew')]
      refine iff_of_false List.not_mem_nil ?_
      rintro ⟨id, ending, hmem, -⟩
      exact hlt (hn.crews ▸ hn.runs _ (List.mem_map_of_mem hmem))

/-- What has come of the tours has been written down since the session was opened. -/
theorem Opened.filed (ho : Opened s) : s.Filed := by
  induction ho with
  | setUp h =>
    intro n crew hcrew
    rw [World.crew?, (setUp_blank h).2.2.2.1] at hcrew
    cases hcrew
  | next ho hnext ih =>
    obtain ⟨m, hm, rfl⟩ := hnext.move
    exact ih.move ho.numbered (moved_of_allows hm)

end Session

end DeviceSuite
