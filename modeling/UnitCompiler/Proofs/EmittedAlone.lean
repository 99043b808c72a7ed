import UnitCompiler.Proofs.CheckedAlone
import UnitCompiler.Proofs.ComposedItems
import UnitCompiler.Proofs.CopiedItems

namespace UnitCompiler

open Context Emitter

/-- The items that a declaration is emitted as, if it is checked and emitted right after registration, with nothing
else in between. -/
def Decl.itemsAlone (t : Session) (debug : Bool) (d : Decl) : Option (List Emission) :=
  match d.check root t with
  | (⟨_, .error _⟩, _) => none
  | (⟨n, .ok ()⟩, t₁) =>
    match (n.emit : EmitM Tape Unit) { t₁ with backend := ⟨debug, []⟩ } with
    | .ok () u => some u.backend.items
    | .error _ _ => none

theorem Decl.itemsAlone_eq_none {t : Session} {debug : Bool} {d : Decl} {e : Diagnostic}
    (h : (d.check root t).1.outcome = .error e) : d.itemsAlone t debug = none := by
  unfold Decl.itemsAlone
  generalize d.check root t = x at h ⊢
  obtain ⟨⟨n, outcome⟩, t₁⟩ := x
  cases h
  rfl

section Alone

variable {t t₁ : Session} {d n : Decl}

structure Context.Hosts (c : Context) (d : Decl) : Prop where
  sound : Sound c
  issued : Issued c
  named : Named c
  pos : root < c.scopes.length
  spares : d.SparesBuiltin
  held : ∀ m ∈ d.held, c.Has m

theorem Decl.readable_alone (h : t.context.Hosts d) (hcheck : d.check root t = (⟨n, .ok ()⟩, t₁)) {l : Shift}
    {live : TypeId → Prop} {final : Context} (himage : Image l live t₁.context final) :
    Readable l live t₁.context final ∧ ∀ m ∈ n.held, t₁.context.Has m := by
  have haccepted := Decl.check_accepted hcheck
  have hsound := Decl.check_sound h.spares h.sound h.pos
  have hsteps := d.check_steps h.pos
  rw [hcheck] at hsound hsteps
  refine ⟨{ himage with
    sound := hsound
    issued := haccepted.issued h.issued
    named := hsteps.named h.named }, ?_⟩
  exact haccepted.held h.pos (List.forall_mem_singleton.mpr h.held) n List.mem_cons_self

theorem Shift.number_strictMono (l : Shift) : StrictMono l.number := by
  intro j k hjk
  unfold Shift.number
  split_ifs <;> omega

/-- The numbers that an emission of a lodged declaration gives to the labels. -/
theorem Decl.Lodges.renumbers {c c₁ final : Context} {lo mid start next hi : Nat} {n n' : Decl} {l : Shift}
    {live : TypeId → Prop} (h : Decl.Lodges c final lo mid n n' c₁ l live) (hlo : c.labels ≤ lo) (hmid : lo ≤ mid)
    (hlast : mid ≤ start) (hnext : next + c₁.labels = start + hi) :
    Emission.Renumbers c.labels lo mid start next hi (l.relabel c₁.labels start) where
  fixed k hk := by
    rw [Shift.relabel_of_le (Nat.le_trans hk h.issued), h.fixed k hk]
  moved k hlt hle := by
    by_cases hk : k ≤ c₁.labels
    · left
      rw [Shift.relabel_of_le hk]
      exact h.moved k hlt hk
    · right
      rw [Shift.relabel, if_neg hk]
      omega
  injective j k hj hk heq := by
    -- labels of the check stay below those of the emission
    have hbelow : ∀ i ≤ c₁.labels, l.number i ≤ start := by
      intro i hi
      by_cases hbase : i ≤ c.labels
      · rw [h.fixed i hbase]
        omega
      · have := h.moved i (Nat.lt_of_not_le hbase) hi
        omega
    unfold Shift.relabel at heq
    by_cases hj' : j ≤ c₁.labels <;> by_cases hk' : k ≤ c₁.labels
    · rw [if_pos hj', if_pos hk'] at heq
      exact l.number_strictMono.injective heq
    · rw [if_pos hj', if_neg hk'] at heq
      have := hbelow j hj'
      omega
    · rw [if_neg hj', if_pos hk'] at heq
      have := hbelow k hk'
      omega
    · rw [if_neg hj', if_neg hk'] at heq
      omega

/-- A lodged declaration is emitted as it is alone, up to the numbers of its labels. -/
theorem Decl.emit_alone (h : t.context.Hosts d) (hcheck : d.check root t = (⟨n, .ok ()⟩, t₁)) {n' : Decl}
    {final : Context} {lo mid : Nat} {l : Shift} {live : TypeId → Prop}
    (hlodges : Decl.Lodges t.context final lo mid n n' t₁.context l live) {s : Emitter Tape}
    (hs : Relabels final s.context) (hframe : s.frame = none) (hlo : t.context.labels ≤ lo) (hmid : lo ≤ mid)
    (hlast : mid ≤ s.context.labels) :
    (∃ u es es', n'.emit s = .ok () u ∧ Writes s u es' ∧ d.itemsAlone t s.backend.debug = some es ∧
      ∃ hi lab, Emission.Tracks lab hi some es es' ∧
        Emission.Renumbers t.context.labels lo mid s.context.labels u.context.labels hi lab) ∨
    (∃ e u, n'.emit s = .error e u) ∧ d.itemsAlone t s.backend.debug = none := by
  obtain ⟨hreadable, hheld⟩ := Decl.readable_alone h hcheck hlodges.image
  have hbeside : Abreast l t₁.context final s.context.labels 0
      ({ t₁ with backend := ⟨s.backend.debug, []⟩ } : Emitter Tape) s :=
    ⟨.refl _, hs, rfl, Nat.zero_le _, by rw [hframe]; exact .none, rfl⟩
  have htogether := Decl.emit_parallel hreadable hlodges.copies hheld _ _ hbeside
  unfold Decl.itemsAlone
  rw [hcheck]
  dsimp only
  generalize (n.emit : EmitM Tape Unit) _ = r at htogether ⊢
  generalize n'.emit s = r' at htogether ⊢
  cases htogether with
  | @error e e' v v' => exact Or.inr ⟨⟨e', v', rfl⟩, rfl⟩
  | @ok a a' v v' es es' _ hw hw' hlabels htracks =>
    refine Or.inl ⟨v', es, es', rfl, hw', ?_, _, _, htracks, ?_⟩
    · exact congrArg some hw.items
    · exact hlodges.renumbers hlo hmid hlast hlabels

end Alone

/-- A checked sequence is emitted as its declarations are one by one, up to the numbers of their labels. -/
theorem DeclList.emitFrom_alone {t : Session} {final : Context} {ds : List Decl} {seq : DeclList} {lo : Nat}
    (hds : ∀ d ∈ ds, t.context.Hosts d) (hlodges : Decl.LodgesAll True t final lo ds (seq.filterMap id))
    (hlo : t.context.labels ≤ lo) {s : Emitter Tape} (hs : Relabels final s.context) (hframe : s.frame = none)
    (index : Nat) :
    (∃ u es, DeclList.emitFrom index seq s = .ok () u ∧ Writes s u es ∧
      (∀ d ∈ ds, (d.itemsAlone t s.backend.debug).isSome = true) ∧
      Emission.Assembled t.context.labels final.labels lo s.context.labels
        (ds.filterMap (Decl.itemsAlone t s.backend.debug)) es) ∨
    (∃ e u, DeclList.emitFrom index seq s = .error e u) ∧ ∃ d ∈ ds, d.itemsAlone t s.backend.debug = none := by
  induction seq generalizing ds lo s index with
  | nil =>
    cases hlodges
    rw [DeclList.emitFrom]
    exact Or.inl ⟨s, [], rfl, .refl s, List.forall_mem_nil _, .nil⟩
  | cons slot rest ih =>
    cases slot with
    | none =>
      rw [DeclList.emitFrom, bind_of_ok _ (show log (.skipped index) s = .ok () _ from rfl)]
      obtain ⟨u, es, hrun, hw, hrest⟩ | hfails := ih (s := { s with events := s.events ++ [.skipped index] }) hds
        hlodges hlo hs hframe (index + 1)
      · exact Or.inl ⟨u, es, hrun, (writes_log s _).trans hw, hrest⟩
      · exact Or.inr hfails
    | some n' =>
      change Decl.LodgesAll True t final lo ds (n' :: rest.filterMap id) at hlodges
      cases hlodges with
      | @cons _ mid d n _ t₁ ds _ hcheck hle h hrest =>
        obtain ⟨hd, hds⟩ := List.forall_mem_cons.mp hds
        obtain ⟨l, live, hlodges⟩ := h trivial
        have hmid := hrest.le
        have hlast := hs.labels
        rw [DeclList.emitFrom, bind_of_ok _ (show log (.visited .emit index n'.noun) s = .ok () _ from rfl)]
        -- the declaration writes in its place what it writes alone, or it fails both times
        obtain ⟨u, es, es', hrun, hw, halone, hi, lab, htracks, hlab⟩ | ⟨⟨e, u, hrun⟩, halone⟩ :=
          Decl.emit_alone hd hcheck hlodges (s := { s with events := s.events ++ [.visited .emit index n'.noun] }) hs
            hframe hlo hle (Nat.le_trans hmid hlast)
        · rw [bind_of_ok _ (DeclList.guarded_eq_ok.mpr hrun)]
          have hdebug : u.backend.debug = s.backend.debug := hw.debug
          obtain ⟨v, fs, hrun', hw', hsome, hassembled⟩ | ⟨hfails, hnone⟩ := ih hds hrest (Nat.le_trans hlo hle)
            (hs.trans hw.context) (hw.frame.trans hframe) (index + 1)
          · rw [hdebug] at hsome hassembled
            refine Or.inl ⟨v, es' ++ fs, hrun', ?_, ?_, ?_⟩
            · exact ((writes_log s _).trans hw).trans hw'
            · refine List.forall_mem_cons.mpr ⟨?_, hsome⟩
              rw [halone]
              rfl
            · rw [List.filterMap_cons_some halone]
              have hnext := hw.context.labels
              exact .cons htracks hlab ⟨hlo, hle, hmid, hlast, hnext⟩ hassembled
          · rw [hdebug] at hnone
            obtain ⟨d', hd', hnone⟩ := hnone
            exact Or.inr ⟨hfails, d', List.mem_cons_of_mem _ hd', hnone⟩
        -- the guard changes the diagnostic but never lets a failure through
        · refine Or.inr ⟨?_, d, List.mem_cons_self, halone⟩
          cases hguarded : DeclList.guarded .emit n' n'.emit
              { s with events := s.events ++ [.visited .emit index n'.noun] } with
          | ok a v =>
            rw [DeclList.guarded_eq_ok.mp hguarded] at hrun
            cases hrun
          | error e v => exact ⟨e, v, bind_of_error _ hguarded⟩

end UnitCompiler
