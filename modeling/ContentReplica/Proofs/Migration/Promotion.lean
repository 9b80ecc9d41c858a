import ContentReplica.Proofs.Migration.Stages
import ContentReplica.Proofs.Replication.BulkAgrees

/-!
# Promotion

A promotion gives the namespace of the shadow the live name (`Database.swap_spec`). A namespace
answers a call under each name it has (`Database.call_inNamespace`), so the live name answers then as
the shadow did. `Migration.prepare_undisturbed` puts this together with the stages: whatever fails, no
namespace but the shadow changes before the promotion.
-/

namespace ContentReplica

/-! ## Calls -/

namespace QueryCall

/-- The same call in a namespace. -/
def inNamespace (c : QueryCall) (ns : Ident) : QueryCall :=
  { c with
    source := match c.source with
      | .function name => .function ⟨ns, name.name⟩
      | .view name => .view ⟨ns, name.name⟩ }

/-- The refusal of a call whose function or view is not there. -/
def missing (c : QueryCall) : StoreFault :=
  match c.source with
  | .function name => .noFunction name.text
  | .view name => .noRelation name.text

end QueryCall

namespace Database

/-- What a call reads in a namespace, if its function or view is there. -/
def sourceRows? (n : Namespace) (c : QueryCall) : Option (Except StoreFault (List Row)) :=
  match c.source with
  | .function name => (n.functions.get? name.name).map fun plan => n.evaluate plan c.locale
  | .view name => (n.views.get? name.name).map fun view => .ok view.rows

/-- A call in a namespace that exists reads its function or view there. -/
theorem callRows_inNamespace {d : Database} {ns : Ident} {n : Namespace}
    (hn : d.namespaces.get? ns = some n) (c : QueryCall) :
    d.callRows (c.inNamespace ns)
      = (sourceRows? n c).getD (.error (c.inNamespace ns).missing) := by
  obtain ⟨source, locale, filters, order, skip, take⟩ := c
  unfold callRows sourceRows? QueryCall.missing QueryCall.inNamespace
  cases source with
  | function name =>
    dsimp only
    rw [namespace_eq_ok.2 hn]
    cases hfunction : n.functions.get? name.name with
    | none => simp [bind, Except.bind, hfunction, throw, throwThe, MonadExceptOf.throw]
    | some plan => simp [bind, Except.bind, hfunction]
  | view name =>
    dsimp only
    rw [namespace_eq_ok.2 hn]
    cases hview : n.views.get? name.name with
    | none => simp [bind, Except.bind, hview, throw, throwThe, MonadExceptOf.throw]
    | some view => simp [bind, Except.bind, hview, pure, Except.pure]

/-- A namespace answers a call the same under two names, or it refuses the call under each for a
function or view that is not there. -/
theorem call_inNamespace {d d' : Database} {ns ns' : Ident} {n : Namespace}
    (hn : d.namespaces.get? ns = some n) (hn' : d'.namespaces.get? ns' = some n) (c : QueryCall) :
    d'.call (c.inNamespace ns') = d.call (c.inNamespace ns) ∨
      d'.call (c.inNamespace ns') = .error (c.inNamespace ns').missing ∧
        d.call (c.inNamespace ns) = .error (c.inNamespace ns).missing := by
  unfold call
  rw [callRows_inNamespace hn, callRows_inNamespace hn']
  cases sourceRows? n c with
  | none => exact .inr ⟨rfl, rfl⟩
  | some rows => exact .inl rfl

/-! ## One promotion -/

/-- After a promotion the live name has the namespace that was the shadow, and the two other names are
free. -/
theorem swap_spec {d d' : Database} {live shadow retired : Ident} (hshadow : shadow ≠ live)
    (hretired : retired ≠ live) (hother : retired ≠ shadow)
    (h : d.swap live shadow retired = .ok d') :
    ∃ n, d.namespaces.get? shadow = some n ∧ d'.namespaces.get? live = some n ∧
      d'.namespaces.get? shadow = none ∧ d'.namespaces.get? retired = none := by
  obtain ⟨n, hn, rfl⟩ := swap_eq_ok.1 h
  rw [get?_dropNamespace_of_ne _ hother.symm] at hn
  refine ⟨n, hn, ?_⟩
  cases ((d.dropNamespace retired).dropNamespace shadow).namespaces.get? live with
  | none =>
    dsimp only
    rw [get?_dropNamespace_of_ne _ hretired.symm, get?_withNamespace_self,
      get?_dropNamespace_of_ne _ hother.symm, get?_withNamespace_of_ne _ _ hshadow,
      get?_dropNamespace_self, get?_dropNamespace_self]
    exact ⟨rfl, rfl, rfl⟩
  | some former =>
    dsimp only
    rw [get?_dropNamespace_of_ne _ hretired.symm, get?_withNamespace_self,
      get?_dropNamespace_of_ne _ hother.symm, get?_withNamespace_of_ne _ _ hshadow,
      get?_withNamespace_of_ne _ _ hother.symm, get?_dropNamespace_of_ne _ hshadow,
      get?_dropNamespace_self, get?_dropNamespace_self]
    exact ⟨rfl, rfl, rfl⟩

end Database

/-- The same for the calls of a store. -/
theorem Store.call_inNamespace {s s' : Store} {ns ns' : Ident} {n : Namespace}
    (hn : s.namespace? ns = some n) (hn' : s'.namespace? ns' = some n) (c : QueryCall) :
    s'.call (c.inNamespace ns') = s.call (c.inNamespace ns) ∨
      s'.call (c.inNamespace ns') = .error (.database (c.inNamespace ns').missing) ∧
        s.call (c.inNamespace ns) = .error (.database (c.inNamespace ns).missing) := by
  unfold call
  rcases Database.call_inNamespace hn hn' c with h | ⟨h', h⟩
  · exact .inl (congrArg _ h)
  · rw [h, h']
    exact .inr ⟨rfl, rfl⟩

/-- A namespace that was dropped is gone, and no other one changes. -/
theorem Store.dropNamespace_ok {s s' : Store} {ns : Ident}
    (h : s.execute [.dropNamespace ns] = (.ok (), s')) :
    s'.namespace? ns = none ∧ ∀ name, name ≠ ns → s'.namespace? name = s.namespace? name := by
  have hdrop := Database.applyAll_singleton.1 (execute_ok h).2.1
  have hdatabase : s'.database = s.database.dropNamespace ns := (Except.ok.inj hdrop).symm
  unfold namespace?
  rw [hdatabase]
  exact ⟨Database.get?_dropNamespace_self .., fun name hn => Database.get?_dropNamespace_of_ne _ hn⟩

namespace Prepared

variable {p : Prepared} {s s' : Store}

/-- A promotion that succeeds makes live what was the shadow, and changes no namespace that it does not
name. -/
theorem swap_ok {report : MigrationReport} (hshadow : p.shadow ≠ p.live)
    (hretired : p.retired ≠ p.live) (hother : p.retired ≠ p.shadow)
    (h : p.swap s = (.ok report, s')) :
    (∃ n, s.namespace? p.shadow = some n ∧ s'.namespace? p.live = some n) ∧
      s'.namespace? p.shadow = none ∧ s'.namespace? p.retired = none ∧
      ∀ name, name ≠ p.live → name ≠ p.shadow → name ≠ p.retired →
        s'.namespace? name = s.namespace? name := by
  unfold swap at h
  generalize hrun : s.execute [.swapNamespaces p.live p.shadow p.retired] = run at h
  obtain ⟨result, s₁⟩ := run
  cases result with
  | error e => cases h
  | ok u =>
    cases h
    have hswap := Database.applyAll_singleton.1 (Store.execute_ok hrun).2.1
    obtain ⟨n, hn, hlive, hnone, hnone'⟩ := Database.swap_spec hshadow hretired hother hswap
    exact ⟨⟨n, hn, hlive⟩, hnone, hnone', fun name hl hs hr => Database.swap_frame hswap hl hs hr⟩

/-- Without failures a shadow that is there is promoted. -/
theorem exists_swap {n : Namespace} (hf : s.failures = []) (hother : p.retired ≠ p.shadow)
    (hn : s.namespace? p.shadow = some n) : ∃ s', p.swap s = (.ok p.report, s') := by
  have hpromoted : (s.database.dropNamespace p.retired).namespaces.get? p.shadow = some n :=
    (Database.get?_dropNamespace_of_ne _ hother.symm).trans hn
  have hswap : ∃ d, s.database.swap p.live p.shadow p.retired = .ok d :=
    ⟨_, Database.swap_eq_ok.2 ⟨n, hpromoted, rfl⟩⟩
  obtain ⟨d, hswap⟩ := hswap
  obtain ⟨s', hrun, -⟩ : ∃ s', s.execute [.swapNamespaces p.live p.shadow p.retired] = (.ok (), s') ∧
      s'.database = d ∧ s'.failures = [] :=
    Store.execute_of_applyAll hf (Database.applyAll_singleton.2 hswap)
  refine ⟨s', ?_⟩
  unfold swap
  rw [hrun]

/-- A promotion that fails changes nothing. -/
theorem swap_error {e : Error} (h : p.swap s = (.error e, s')) : s'.database = s.database := by
  unfold swap at h
  generalize hrun : s.execute [.swapNamespaces p.live p.shadow p.retired] = run at h
  obtain ⟨result, s₁⟩ := run
  cases result with
  | error e =>
    cases h
    exact (Store.execute_error hrun).1
  | ok u => cases h

end Prepared

/-! ## The guarantee -/

namespace Migration

/-- What preparing does: all stages, or the stages up to the one that fails and then a clean-up. -/
theorem prepare_cases (m : Migration) (signal : Signal) (w : World) :
    (∃ report b, m.build signal ⟨w, .start⟩ = (.ok report, b) ∧
      m.prepare signal w = (.ok ⟨m.live, m.shadow, m.retired, report⟩, b.world)) ∨
    ∃ e b, m.build signal ⟨w, .start⟩ = (.error e, b) ∧
      m.prepare signal w = (.error e,
        { b.world with store := (b.world.store.execute [.dropNamespace m.shadow]).2 }) := by
  unfold prepare
  cases hbuild : (m.build signal).run ⟨w, .start⟩ with
  | mk result b =>
    cases result with
    | ok report => exact .inl ⟨report, b, hbuild, rfl⟩
    | error e => exact .inr ⟨e, b, hbuild, rfl⟩

/-- Preparing changes no namespace but the shadow. -/
theorem prepare_frame (m : Migration) (signal : Signal) (w : World) {name : Ident}
    (hn : name ≠ m.shadow) :
    (m.prepare signal w).2.store.namespace? name = w.store.namespace? name := by
  have hframe := m.build_within signal ⟨w, .start⟩ name hn
  rcases m.prepare_cases signal w with ⟨report, b, hbuild, hrun⟩ | ⟨e, b, hbuild, hrun⟩
  · rw [hbuild] at hframe
    rw [hrun]
    exact hframe
  · rw [hbuild] at hframe
    rw [hrun]
    refine Eq.trans (Store.execute_frame rfl fun statement hs hname => hn ?_) hframe
    rw [List.mem_singleton.1 hs] at hname
    exact List.mem_singleton.1 hname

/-- A migration that fails names the stage, and leaves no shadow unless the clean-up fails. -/
theorem prepare_error {m : Migration} {signal : Signal} {w : World} {e : Error}
    (h : (m.prepare signal w).1 = .error e) :
    ∃ stage cause b, e = .migration stage cause ∧ m.FailsAt signal ⟨w, .start⟩ cause b stage ∧
      ((m.prepare signal w).2.store.namespace? m.shadow = none ∨
        ∃ refusal, (b.world.store.execute [.dropNamespace m.shadow]).1 = .error refusal) := by
  rcases m.prepare_cases signal w with ⟨report, b, -, hrun⟩ | ⟨e', b, hbuild, hrun⟩
  · rw [hrun] at h
    cases h
  · rw [hrun] at h ⊢
    cases h
    obtain ⟨stage, cause, rfl, hfails⟩ := build_error hbuild
    refine ⟨stage, cause, b, rfl, hfails, ?_⟩
    dsimp only
    generalize hclean : b.world.store.execute [.dropNamespace m.shadow] = clean
    obtain ⟨result, store⟩ := clean
    cases result with
    | error refusal => exact .inr ⟨refusal, rfl⟩
    | ok u => exact .inl (Store.dropNamespace_ok hclean).1

/-- A migration never disturbs what is live before the promotion. Preparing changes no namespace but
the shadow; if it fails, the error names the stage that failed, and no shadow is left unless the
clean-up failed too. If it succeeds, the namespace that was prepared is promoted in a store without
failures. A promotion that succeeds makes it live, where it answers every call as it did under its
first name, and one that fails changes nothing; a migration that is abandoned leaves everything but
the shadow. -/
theorem prepare_undisturbed (m : Migration) (signal : Signal) (w : World)
    (hshadow : m.shadow ≠ m.live) :
    (∀ name, name ≠ m.shadow →
      (m.prepare signal w).2.store.namespace? name = w.store.namespace? name) ∧
    (∀ e, (m.prepare signal w).1 = .error e →
      ∃ stage cause b, e = .migration stage cause ∧ m.FailsAt signal ⟨w, .start⟩ cause b stage ∧
        ((m.prepare signal w).2.store.namespace? m.shadow = none ∨
          ∃ refusal, (b.world.store.execute [.dropNamespace m.shadow]).1 = .error refusal)) ∧
    ∀ p w', m.prepare signal w = (.ok p, w') →
      ∃ n, w'.store.namespace? m.shadow = some n ∧
        (m.retired ≠ m.live → m.retired ≠ m.shadow →
          (w'.store.failures = [] → ∃ s, p.swap w'.store = (.ok p.report, s)) ∧
          ∀ report s, p.swap w'.store = (.ok report, s) →
            s.namespace? m.live = some n ∧
            (∀ c : QueryCall,
              s.call (c.inNamespace m.live) = w'.store.call (c.inNamespace m.shadow) ∨
              s.call (c.inNamespace m.live) = .error (.database (c.inNamespace m.live).missing) ∧
                w'.store.call (c.inNamespace m.shadow)
                  = .error (.database (c.inNamespace m.shadow).missing)) ∧
            s.namespace? m.shadow = none ∧ s.namespace? m.retired = none ∧
            ∀ name, name ≠ m.live → name ≠ m.shadow → name ≠ m.retired →
              s.namespace? name = w'.store.namespace? name) ∧
        (∀ e s, p.swap w'.store = (.error e, s) → s.database = w'.store.database) ∧
        ∀ s, p.abandon w'.store = (.ok (), s) →
          s.namespace? m.shadow = none ∧
          ∀ name, name ≠ m.shadow → s.namespace? name = w'.store.namespace? name := by
  refine ⟨fun name hn => m.prepare_frame signal w hn, fun e => prepare_error, ?_⟩
  intro p w' hprepare
  rcases m.prepare_cases signal w with ⟨built, b, hbuild, hrun⟩ | ⟨e, b, -, hrun⟩
  · obtain ⟨hp, hw⟩ := Prod.mk.inj (hrun.symm.trans hprepare)
    obtain rfl := Except.ok.inj hp
    subst hw
    obtain ⟨n, hn⟩ := exists_shadow hbuild
    refine ⟨n, hn, fun hretired hother => ⟨fun hf => Prepared.exists_swap hf hother hn,
      fun report s hswap => ?_⟩, fun e s => Prepared.swap_error, fun s => Store.dropNamespace_ok⟩
    obtain ⟨⟨n', hn', hlive⟩, hnone, hnone', hframe⟩ :=
      Prepared.swap_ok (p := ⟨m.live, m.shadow, m.retired, built⟩) hshadow hretired hother hswap
    obtain rfl := Option.some.inj (hn.symm.trans hn')
    exact ⟨hlive, fun c => Store.call_inNamespace hn hlive c, hnone, hnone', hframe⟩
  · rw [hrun] at hprepare
    cases hprepare

end Migration

namespace Catalog

/-- The migration of the catalog. -/
def migration : Migration := ⟨namespaceName, {}⟩

/-- The catalog beside a source that has tags only. -/
def reduced : World :=
  ⟨{ ContentSource.new space [tagType] with
      answers := [.ok ((SyncPage.empty (.done "first")).withEntry (tag "t1" "red"))] }, setUp⟩

/-- The promotion after the migration to the tags. -/
def promoted : Except Error MigrationReport × Store :=
  match migration.prepare .never reduced with
  | (.ok p, w) => p.swap w.store
  | (.error e, w) => (.error e, w.store)

end Catalog

/-- The catalog is live until the promotion, and then what was prepared is. -/
theorem Migration.prepare_undisturbed_catalog :
    ∃ p w report s n, Catalog.migration.prepare .never Catalog.reduced = (.ok p, w) ∧
      w.store.namespace? Catalog.migration.live
        = Catalog.reduced.store.namespace? Catalog.migration.live ∧
      w.store.namespace? Catalog.migration.shadow = some n ∧
      p.swap w.store = (.ok report, s) ∧ s.namespace? Catalog.migration.live = some n ∧
      s.namespace? Catalog.migration.shadow = none := by
  have hshadow : Catalog.migration.shadow ≠ Catalog.migration.live := by decide +kernel
  have hretired : Catalog.migration.retired ≠ Catalog.migration.live := by decide +kernel
  have hother : Catalog.migration.retired ≠ Catalog.migration.shadow := by decide +kernel
  have hpromoted : Catalog.promoted.1.isOk = true := by decide +kernel
  obtain ⟨hframe, -, hprepared⟩ :=
    prepare_undisturbed Catalog.migration .never Catalog.reduced hshadow
  have hlive := hframe _ hshadow.symm
  unfold Catalog.promoted at hpromoted
  cases hrun : Catalog.migration.prepare .never Catalog.reduced with
  | mk result w =>
    cases result with
    | error e =>
      rw [hrun] at hpromoted
      cases hpromoted
    | ok p =>
      rw [hrun] at hpromoted hlive
      obtain ⟨report, hreport⟩ := exists_of_isOk hpromoted
      have hswap : p.swap w.store = (.ok report, (p.swap w.store).2) := Prod.ext hreport rfl
      obtain ⟨n, hn, hdone, -⟩ := hprepared p w hrun
      obtain ⟨-, hpromote⟩ := hdone hretired hother
      obtain ⟨hlast, -, hnone, -⟩ := hpromote report _ hswap
      exact ⟨p, w, report, _, n, rfl, hlive, hn, hswap, hlast, hnone⟩

end ContentReplica
