import DriveDelta.Proofs.Config.Settings
import DriveDelta.Proofs.Toml.Writing

/-!
# Sections are loaded independently of each other

Whatever sections are written, in whatever order and in whatever way: each sets its own part, and
what is not written is built in.  All that a document can say of the fields of a section can be
written.

## What is here

* `Config.exists_settingsText`: sections have a text;
* `Config.Follows.eq`: what sections set is one configuration, whatever their order;
* `Config.sections_independent`.
-/

set_option autoImplicit false

namespace DriveDelta.Config

open Toml (Value)

/-! ## Every section has a text -/

/-- What a document can say of a field: whole numbers have 64 bits with their sign. -/
def Field.Sayable : Field → Prop
  | natural n => n < 0x8000000000000000
  | amount x => Toml.Sayable x
  | name _ | names _ => True

/-- A value that gives a field. -/
def Field.value : Field → Value
  | natural n => .integer n
  | amount x => .float x
  | name s => .text s
  | names ss => .array (ss.map .text)

theorem Field.means_value (f : Field) : f.Means f.value := by
  cases f with
  | natural n => exact .natural n
  | amount x => exact .amount x
  | name s => exact .name s
  | names ss => exact .names ss

theorem Field.exists_valueText {f : Field} (h : f.Sayable) : ∃ cs, Toml.ValueText f.value cs := by
  cases f with
  | natural n => exact ⟨_, .scalar (.number (Toml.numberText_natural h))⟩
  | amount x =>
    obtain ⟨cs, hcs⟩ := Toml.exists_numberText_float h
    exact ⟨cs, .scalar (.number hcs)⟩
  | name s =>
    obtain ⟨cs, hcs⟩ := Toml.exists_stringText s
    exact ⟨cs, .scalar (.text hcs)⟩
  | names ss => exact Toml.exists_valueText_texts ss

/-- The table of a section, with its fields in their order. -/
def Setting.table (s : Setting) : Toml.Section where
  path := s.path
  entries := s.fields.map fun f => (f.1, f.2.value)

theorem Setting.writtenAs_table (s : Setting) : s.WrittenAs s.table := by
  refine ⟨rfl, s.fields, List.Perm.refl _, List.forall₂_map_right_iff.2 ?_⟩
  exact List.forall₂_same.2 fun f _ => ⟨rfl, f.2.means_value⟩

theorem exists_settingsText {settings : List Setting}
    (h : ∀ s ∈ settings, ∀ f ∈ s.fields, f.2.Sayable) : ∃ cs, SettingsText settings cs := by
  have hstatements : ∀ x ∈ (settings.map Setting.table).flatMap Toml.Section.statements,
      ∃ t, Toml.StatementText x t := by
    intro x hx
    obtain ⟨t, ht, hx⟩ := List.mem_flatMap.1 hx
    obtain ⟨s, hs, rfl⟩ := List.mem_map.1 ht
    rcases List.mem_cons.1 hx with rfl | hx
    · have hshort : ∀ p ∈ Setting.paths, p.length ≤ Toml.deepest := by decide
      exact Toml.exists_statementText_table s.path_ne_nil (hshort _ s.path_mem)
    · obtain ⟨e, he, rfl⟩ := List.mem_map.1 hx
      obtain ⟨f, hf, rfl⟩ := List.mem_map.1 he
      exact Toml.exists_statementText_entry f.1 (Field.exists_valueText (h s hs f hf))
  obtain ⟨cs, hcs⟩ := Toml.exists_linesText hstatements
  refine ⟨cs, .intro (List.forall₂_map_right_iff.2 ?_) (.plain hcs)⟩
  exact List.forall₂_same.2 fun s _ => s.writtenAs_table

/-! ## One configuration -/

/-- A limiter is determined by the sections that it follows. -/
theorem LimiterFollows.eq {l l' : LimiterConfig Double} {settings settings' : List Setting}
    (h : LimiterFollows l settings) (h' : LimiterFollows l' settings')
    (hmem : ∀ s, s ∈ settings ↔ s ∈ settings') : l = l' := by
  have hpool (c : ServiceClass) : l.pool c = l'.pool c := by
    by_cases hp : ∃ p, .pool c p ∈ settings
    · obtain ⟨p, hp⟩ := hp
      rw [h.pool_eq c p hp, h'.pool_eq c p ((hmem _).1 hp)]
    · rw [h.pool_builtin c fun p hmem' => hp ⟨p, hmem'⟩,
        h'.pool_builtin c fun p hmem' => hp ⟨p, (hmem _).2 hmem'⟩]
  have hsliding : l.sliding = l'.sliding := by
    by_cases hlimiter : ∃ s ∈ settings, s.IsLimiter
    · by_cases hs : ∃ lowest n classes, .sliding lowest n classes ∈ settings
      · obtain ⟨lowest, n, classes, hs⟩ := hs
        rw [h.sliding_eq _ _ _ hs, h'.sliding_eq _ _ _ ((hmem _).1 hs)]
      · have hno : ∀ lowest n classes, .sliding lowest n classes ∉ settings :=
          fun _ _ _ hmem' => hs ⟨_, _, _, hmem'⟩
        obtain ⟨s, hs, hlimiter⟩ := hlimiter
        rw [h.sliding_none_iff.2 ⟨⟨s, hs, hlimiter⟩, hno⟩, h'.sliding_none_iff.2
          ⟨⟨s, (hmem s).1 hs, hlimiter⟩, fun _ _ _ hmem' => hno _ _ _ ((hmem _).2 hmem')⟩]
    · rw [h.sliding_builtin fun s hs hlimiter' => hlimiter ⟨s, hs, hlimiter'⟩,
        h'.sliding_builtin fun s hs hlimiter' => hlimiter ⟨s, (hmem s).2 hs, hlimiter'⟩]
  obtain ⟨standard, bulk, sliding⟩ := l
  obtain ⟨standard', bulk', sliding'⟩ := l'
  obtain rfl : standard = standard' := hpool .standard
  obtain rfl : bulk = bulk' := hpool .bulkContainer
  obtain rfl : sliding = sliding' := hsliding
  rfl

/-- So is a configuration. -/
theorem Follows.eq {c c' : Config} {settings settings' : List Setting} (h : Follows c settings)
    (h' : Follows c' settings') (hmem : ∀ s, s ∈ settings ↔ s ∈ settings') : c = c' := by
  have hretry : c.retry = c'.retry := by
    by_cases hr : ∃ r, .retry r ∈ settings
    · obtain ⟨r, hr⟩ := hr
      rw [h.retry_eq r hr, h'.retry_eq r ((hmem _).1 hr)]
    · rw [h.retry_none fun r hmem' => hr ⟨r, hmem'⟩,
        h'.retry_none fun r hmem' => hr ⟨r, (hmem _).2 hmem'⟩]
  have hcache : c.urlCache = c'.urlCache := by
    by_cases hc : ∃ interval strategy pageSize, .cache interval strategy pageSize ∈ settings
    · obtain ⟨interval, strategy, pageSize, hc⟩ := hc
      rw [h.cache_eq _ _ _ hc, h'.cache_eq _ _ _ ((hmem _).1 hc)]
    · rw [h.cache_builtin fun _ _ _ hmem' => hc ⟨_, _, _, hmem'⟩,
        h'.cache_builtin fun _ _ _ hmem' => hc ⟨_, _, _, (hmem _).2 hmem'⟩]
  have hlimiter : c.limiter = c'.limiter := h.limiter.eq h'.limiter hmem
  obtain ⟨retry, limiter, cache⟩ := c
  obtain ⟨retry', limiter', cache'⟩ := c'
  obtain rfl : retry = retry' := hretry
  obtain rfl : limiter = limiter' := hlimiter
  obtain rfl : cache = cache' := hcache
  rfl

/-- **Sections are loaded independently of each other.**  Whatever a document can say of their
fields can be written; every text of theirs is loaded as a configuration that follows them; and it
is the same one in every order. -/
theorem sections_independent {settings : List Setting} (hrange : ∀ s ∈ settings, s.InRange)
    (hpaths : (settings.map Setting.path).Nodup) :
    ((∀ s ∈ settings, ∀ f ∈ s.fields, f.2.Sayable) → ∃ cs, SettingsText settings cs) ∧
      (∀ cs, SettingsText settings cs →
        ∃ c, load (some (Utf8.encode cs)) = .ok c ∧ Follows c settings) ∧
      ∀ settings' cs cs', settings'.Perm settings → SettingsText settings cs →
        SettingsText settings' cs' →
          load (some (Utf8.encode cs')) = load (some (Utf8.encode cs)) := by
  refine ⟨exists_settingsText, fun cs h => load_of_settingsText hrange hpaths h,
    fun settings' cs cs' hperm h h' => ?_⟩
  obtain ⟨c, hc, hfollows⟩ := load_of_settingsText hrange hpaths h
  obtain ⟨c', hc', hfollows'⟩ := load_of_settingsText
    (fun s hs => hrange s (hperm.mem_iff.1 hs)) ((hperm.map _).nodup_iff.2 hpaths) h'
  rw [hc, hc', hfollows'.eq hfollows fun s => hperm.mem_iff]

/-! ## Two sections -/

/-- Sections of which one is a part of the limiter. -/
def twoSettings : List Setting :=
  [.pool .bulkContainer ⟨500, Decimal.toDouble ⟨false, 2, 1⟩⟩, .cache none (some .shadow) none]

/-- Tables of theirs. -/
def twoTables : List Toml.Section :=
  [⟨["limiter", "bulk"],
      [("refill_per_sec", .float (Decimal.toDouble ⟨false, 2, 1⟩)), ("capacity", .integer 500)]⟩,
    ⟨["url_cache"], [("strategy", .text "shadow")]⟩]

theorem twoTables_written : List.Forall₂ Setting.WrittenAs twoSettings twoTables := by
  refine .cons ⟨rfl, [_, _], List.Perm.swap _ _ _, ?_⟩ (.cons ⟨rfl, [_], .refl _, ?_⟩ .nil)
  · exact .cons ⟨rfl, .amount _⟩ (.cons ⟨rfl, .natural _⟩ .nil)
  · exact .cons ⟨rfl, .name _⟩ .nil

/-- A text of theirs, with comments, both ends of a line, and numbers that are no plain digits. -/
def twoSettingsText : String :=
  "# pools\n[limiter.bulk]\nrefill_per_sec = 2e1 # tokens\r\ncapacity = 0x1_F4\n\n" ++
    "[ url_cache ]\nstrategy = \x27shadow\x27"

theorem settingsText_twoSettings : SettingsText twoSettings twoSettingsText.toList := by
  have hbare {k : String} (h : k.toList ≠ [] ∧ k.toList.all Toml.isBare = true) :
      Toml.KeyText k k.toList := .bare (List.all_eq_true.1 h.2) h.1
  have hblank : Toml.Blank [' '] := by simp [Toml.Blank]
  have hcomment {s : String} (h : s.toList.all Toml.isPlain = true) :
      Toml.CommentText ('#' :: s.toList) := .sign (List.all_eq_true.1 h)
  have hbulk : Toml.PathText ["limiter", "bulk"] _ :=
    .more (hbare (by decide)) Toml.blank_nil Toml.blank_nil
      (.last (hbare (by decide)) Toml.blank_nil)
  have hkey {k : String} (h : k.toList ≠ [] ∧ k.toList.all Toml.isBare = true) :
      Toml.PathText [k] (k.toList ++ [' ']) := .last (hbare h) hblank
  have hrefill : Toml.NumberText (.float (Decimal.toDouble ⟨false, 2, 1⟩)) _ :=
    .scientific (d := ⟨false, 2, 1⟩) .absent
      (.digits (.digit (d := 2) (by decide) false) (by decide))
      (show Toml.ExponentText 1 _ from
        .letter (n := 1) (.inl rfl) .absent (.digit (by decide) false))
      (List.cons_ne_nil _ _) (by decide +kernel)
  have hdigits : Toml.DigitsText 16 500 3 _ :=
    .more (n := 31) (d := 4)
      (.apart (n := 1) (d := 15) (.digit (d := 1) (by decide) false) (by decide) true)
      (by decide) false
  have hcapacity : Toml.NumberText (.integer 500) ('0' :: 'x' :: _) :=
    .based (by simp) hdigits (by decide)
  have hstrategy : Toml.StringText "shadow" _ :=
    .single (List.all_iff_forall_prop.1 (by decide))
  have hlines := Toml.LinesText.blank Toml.blank_nil
    (hcomment (s := " pools") (by decide)) .feed
    (.more Toml.blank_nil (.table Toml.blank_nil hbulk (by decide)) Toml.blank_nil .absent .feed
    (.more Toml.blank_nil
      (.entry (hkey (k := "refill_per_sec") (by decide)) (by decide) hblank
        (.scalar (.number hrefill)))
      hblank (hcomment (s := " tokens") (by decide)) .carriage
    (.more Toml.blank_nil
      (.entry (hkey (k := "capacity") (by decide)) (by decide) hblank
        (.scalar (.number hcapacity)))
      Toml.blank_nil .absent .feed
    (.blank Toml.blank_nil .absent .feed
    (.more Toml.blank_nil
      (.table hblank (hkey (k := "url_cache") (by decide)) (by decide))
      Toml.blank_nil .absent .feed
    (.last Toml.blank_nil
      (.entry (hkey (k := "strategy") (by decide)) (by decide) hblank (.scalar (.text hstrategy)))
      Toml.blank_nil .absent))))))
  refine .intro twoTables_written (.plain ?_)
  convert hlines using 1
  · rfl
  · decide

theorem sections_independent_two : ∃ c,
    load (some (Utf8.encode twoSettingsText.toList)) = .ok c ∧ c.retry = none ∧
      c.limiter.bulk = ⟨500, Decimal.toDouble ⟨false, 2, 1⟩⟩ ∧
      c.limiter.standard = LimiterConfig.builtin.standard ∧ c.limiter.sliding = none ∧
      c.urlCache = ⟨3600, .shadow, none⟩ := by
  have hrange : ∀ s ∈ twoSettings, s.InRange := by
    simp [twoSettings, Setting.InRange]
  obtain ⟨c, hload, hc⟩ := (sections_independent hrange (by decide)).2.1 _ settingsText_twoSettings
  refine ⟨c, hload, hc.retry_none (by simp [twoSettings]), hc.limiter.pool_eq .bulkContainer _ ?_,
    hc.limiter.pool_builtin .standard (by simp [twoSettings]), hc.limiter.sliding_none_iff.2 ?_,
    hc.cache_eq none (some .shadow) none (by simp [twoSettings])⟩
  · simp [twoSettings]
  · simp [twoSettings, Setting.IsLimiter, Setting.path]

end DriveDelta.Config
