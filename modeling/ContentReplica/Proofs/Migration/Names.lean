import ContentReplica.Proofs.Migration.Promotion
import ContentReplica.Proofs.Sql.Suffix

/-!
# The names of a migration

An accepted configuration has two suffixes that are different texts, and none of them is empty
(`Config.validate_eq_ok`). The names are made of the live name and a suffix, and lose some of what the
suffix says, so different texts are not enough: `Migration.names_apart` tells exactly which suffixes
give two of the three namespaces one name. With any others (`Migration.SuffixesApart`) the live
namespace is not touched before the promotion, and the promotion keeps what was prepared.
-/

namespace ContentReplica

namespace Config

/-- What an accepted configuration says. -/
theorem validate_eq_ok {c : Config} :
    c.validate = .ok () ↔
      Ident.isPlain c.schema.namespaceName = true ∧ c.views.workers ≠ 0 ∧
        c.database.maxConnections ≠ 0 ∧ c.migration.shadowSuffix ≠ "" ∧
        c.migration.retiredSuffix ≠ "" ∧ c.migration.shadowSuffix ≠ c.migration.retiredSuffix := by
  unfold validate
  by_cases hplain : Ident.isPlain c.schema.namespaceName = true <;>
    by_cases hworkers : c.views.workers = 0 <;>
    by_cases hconnections : c.database.maxConnections = 0 <;>
    simp [hplain, hworkers, hconnections, bind, Except.bind, pure, Except.pure, throw, throwThe,
      MonadExceptOf.throw, and_assoc]

end Config

namespace Migration

/-! ## Suffixes and tags -/

/-- The suffixes tell the three names apart: the live name takes none of them in, and they do not read
alike behind it. -/
def SuffixesApart (m : Migration) : Prop :=
  ¬ m.live.Swallows m.config.migration.shadowSuffix ∧
    ¬ m.live.Swallows m.config.migration.retiredSuffix ∧
    ¬ m.live.Merges m.config.migration.retiredSuffix m.config.migration.shadowSuffix

instance (m : Migration) : Decidable m.SuffixesApart := inferInstanceAs (Decidable (_ ∧ _))

/-- The digests of the names do not meet: the tag of a shortened name ends neither the live name nor
the name of another text. -/
structure TagsApart (m : Migration) : Prop where
  shadowLive : ¬ Ident.TagEnds (m.live.text ++ m.config.migration.shadowSuffix) m.live
  retiredLive : ¬ Ident.TagEnds (m.live.text ++ m.config.migration.retiredSuffix) m.live
  shadowRetired : m.config.migration.shadowSuffix ≠ m.config.migration.retiredSuffix →
    ¬ Ident.TagEnds (m.live.text ++ m.config.migration.shadowSuffix) m.retired
  retiredShadow : m.config.migration.shadowSuffix ≠ m.config.migration.retiredSuffix →
    ¬ Ident.TagEnds (m.live.text ++ m.config.migration.retiredSuffix) m.shadow

variable {m : Migration}

/-- Suffixes in plain form tell the names apart, if they are different, none is empty, and the live
name has a letter or a digit. -/
theorem suffixesApart_of_parts (hvalid : m.config.validate = .ok ())
    (hlive : ¬ Ident.OnlyBars m.live.text.toList)
    (hshadow : ∀ c ∈ m.config.migration.shadowSuffix.toList, Ident.isPart c = true)
    (hretired : ∀ c ∈ m.config.migration.retiredSuffix.toList, Ident.isPart c = true) :
    m.SuffixesApart := by
  obtain ⟨-, -, -, hne, hne', hother⟩ := Config.validate_eq_ok.1 hvalid
  exact ⟨Ident.not_swallows_of_parts hshadow hne, Ident.not_swallows_of_parts hretired hne',
    Ident.not_merges_of_parts hlive hretired hshadow hother.symm⟩

/-! ## The guarantee -/

/-- What was prepared is in the shadow, and is to be promoted under the names of the migration. -/
theorem exists_prepared {signal : Signal} {w w' : World} {p : Prepared}
    (h : m.prepare signal w = (.ok p, w')) :
    ∃ n, w'.store.namespace? m.shadow = some n ∧ p.live = m.live ∧ p.shadow = m.shadow ∧
      p.retired = m.retired := by
  rcases m.prepare_cases signal w with ⟨report, b, hbuild, hrun⟩ | ⟨e, b, -, hrun⟩
  · obtain ⟨hp, rfl⟩ := Prod.mk.inj (hrun.symm.trans h)
    obtain rfl := Except.ok.inj hp
    obtain ⟨n, hn⟩ := exists_shadow hbuild
    exact ⟨n, hn, rfl, rfl, rfl⟩
  · cases (Prod.mk.inj (hrun.symm.trans h)).1

/-- The three namespaces of a migration under an accepted configuration. The shadow, or the retired
namespace, has the live name exactly when the live name takes the suffix in, and the two have one name
exactly when their suffixes read alike behind it; suffixes in plain form do neither, unless the live
name is made of bars. When they do neither, preparing leaves the live namespace as it is, what was
prepared can be promoted in a store without failures, and a promotion makes just that live. -/
theorem names_apart (hvalid : m.config.validate = .ok ())
    (hlive : m.config.namespaceIdent = .ok m.live) (htags : m.TagsApart) :
    (m.shadow = m.live ↔ m.live.Swallows m.config.migration.shadowSuffix) ∧
    (m.retired = m.live ↔ m.live.Swallows m.config.migration.retiredSuffix) ∧
    (m.retired = m.shadow ↔
      m.live.Merges m.config.migration.retiredSuffix m.config.migration.shadowSuffix) ∧
    (¬ Ident.OnlyBars m.live.text.toList →
      (∀ c ∈ m.config.migration.shadowSuffix.toList, Ident.isPart c = true) →
      (∀ c ∈ m.config.migration.retiredSuffix.toList, Ident.isPart c = true) → m.SuffixesApart) ∧
    (m.SuffixesApart →
      m.shadow ≠ m.live ∧ m.retired ≠ m.live ∧ m.retired ≠ m.shadow ∧
      ∀ signal w,
        (m.prepare signal w).2.store.namespace? m.live = w.store.namespace? m.live ∧
        ∀ p w', m.prepare signal w = (.ok p, w') →
          ∃ n, w'.store.namespace? m.shadow = some n ∧
            (w'.store.failures = [] → ∃ s, p.swap w'.store = (.ok p.report, s)) ∧
            ∀ report s, p.swap w'.store = (.ok report, s) →
              s.namespace? m.live = some n ∧ s.namespace? m.shadow = none ∧
                s.namespace? m.retired = none) := by
  obtain ⟨hplain, htext⟩ := Ident.new?_eq_ok.1 hlive
  obtain ⟨-, -, -, -, -, hsuffixes⟩ := Config.validate_eq_ok.1 hvalid
  rw [← htext] at hplain
  have hshadow := Ident.withSuffix_eq_self hplain htags.shadowLive
  have hretired := Ident.withSuffix_eq_self hplain htags.retiredLive
  have hother := Ident.withSuffix_eq_withSuffix hplain (htags.retiredShadow hsuffixes)
    (htags.shadowRetired hsuffixes)
  refine ⟨hshadow, hretired, hother, suffixesApart_of_parts hvalid, ?_⟩
  rintro ⟨hnshadow, hnretired, hnother⟩
  replace hshadow : m.shadow ≠ m.live := fun heq => hnshadow (hshadow.1 heq)
  replace hretired : m.retired ≠ m.live := fun heq => hnretired (hretired.1 heq)
  replace hother : m.retired ≠ m.shadow := fun heq => hnother (hother.1 heq)
  refine ⟨hshadow, hretired, hother, fun signal w => ⟨m.prepare_frame signal w hshadow.symm, ?_⟩⟩
  rintro ⟨live, shadow, retired, built⟩ w' hprepare
  obtain ⟨n, hn, rfl, rfl, rfl⟩ := exists_prepared hprepare
  refine ⟨n, hn, fun hf => Prepared.exists_swap hf hother hn, fun report s hswap => ?_⟩
  obtain ⟨⟨n', hn', hpromoted⟩, hnone, hnone', -⟩ :=
    Prepared.swap_ok hshadow hretired hother hswap
  obtain rfl := Option.some.inj (hn.symm.trans hn')
  exact ⟨hpromoted, hnone, hnone'⟩

end Migration

namespace Catalog

/-- The migration of the catalog with suffixes that are not in plain form. -/
def renamed : Migration :=
  ⟨namespaceName, {
    schema := { namespaceName := "catalog" }
    migration := { shadowSuffix := "-next", retiredSuffix := "Old" } }⟩

end Catalog

/-- The catalog is migrated beside `catalog_next` and `catalog_old`. -/
theorem Migration.names_apart_catalog :
    Catalog.renamed.shadow = ⟨"catalog_next"⟩ ∧ Catalog.renamed.retired = ⟨"catalog_old"⟩ ∧
      ∃ p w s n, Catalog.renamed.prepare .never Catalog.reduced = (.ok p, w) ∧
        w.store.namespace? Catalog.renamed.live
          = Catalog.reduced.store.namespace? Catalog.renamed.live ∧
        w.store.namespace? Catalog.renamed.shadow = some n ∧
        p.swap w.store = (.ok p.report, s) ∧ s.namespace? Catalog.renamed.live = some n := by
  have hvalid : Catalog.renamed.config.validate = .ok () :=
    Config.validate_eq_ok.2 (by decide +kernel)
  have hlive : Catalog.renamed.config.namespaceIdent = .ok Catalog.renamed.live :=
    Ident.new?_eq_ok.2 (by decide +kernel)
  have htags : Catalog.renamed.TagsApart :=
    ⟨by decide +kernel, by decide +kernel, by decide +kernel, by decide +kernel⟩
  have hsuffixes : Catalog.renamed.SuffixesApart := by decide +kernel
  have hprepared : (Catalog.renamed.prepare .never Catalog.reduced).1.isOk = true := by
    decide +kernel
  have hfailures : (Catalog.renamed.prepare .never Catalog.reduced).2.store.failures = [] := by
    decide +kernel
  obtain ⟨p, hp⟩ := exists_of_fst_isOk hprepared
  obtain ⟨-, -, -, -, hapart⟩ := Migration.names_apart hvalid hlive htags
  obtain ⟨-, -, -, hrun⟩ := hapart hsuffixes
  obtain ⟨hkept, hpromote⟩ := hrun .never Catalog.reduced
  obtain ⟨n, hn, hswap, hdone⟩ := hpromote p _ hp
  obtain ⟨s, hs⟩ := hswap hfailures
  exact ⟨by decide +kernel, by decide +kernel, p, _, s, n, hp, hkept, hn, hs, (hdone _ s hs).1⟩

/-- Suffixes that are different texts are accepted, and give one name. -/
example :
    ({ migration := { shadowSuffix := "-next", retiredSuffix := "_next" } } : Config).validate
        = .ok () ∧
      Ident.withSuffix ⟨"content"⟩ "-next" = Ident.withSuffix ⟨"content"⟩ "_next" := by
  exact ⟨Config.validate_eq_ok.2 (by decide +kernel), by decide +kernel⟩

end ContentReplica
