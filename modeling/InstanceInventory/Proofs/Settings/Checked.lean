import InstanceInventory.Proofs.Number.Range
import InstanceInventory.Proofs.Pairs
import InstanceInventory.Proofs.Record.Schema
import InstanceInventory.Settings.Check

/-! # Settings that are built

* `Setting.Kind`, `Settings.value`, `Settings.check`: the kind of value that a setting has, its value
  in settings, and what makes such a value of one that is given.
* `Settings.value_of_build`: built settings have the checked value of the last one that is given for a
  setting, or the one that holds where nothing is said.
* `Settings.exists_of_putAll_error`: where settings cannot be built, a given value does not pass its
  check.
* `Setting.Fits`, `Settings.Refusal`: what holds of a value that passes, and why one is refused.
* `Settings.build_sound`: however values are given, settings fit or one of the values is refused.
-/

namespace InstanceInventory
set_option autoImplicit false
open Record (Given)

/-! ## Values -/

theorem Setting.ofName?_name (n : Setting) : ofName? n.name = some n := by
  cases n with
  | _ => decide

theorem Setting.ofName?_eq_some_iff {name : String} {n : Setting} :
    ofName? name = some n ↔ name = n.name := by
  constructor
  · intro h
    exact (by simpa using List.find?_some h : n.name = name).symm
  · rintro rfl
    exact n.ofName?_name

theorem Setting.eq_of_name {m n : Setting} (h : m.name = n.name) : m = n :=
  Option.some.inj (by rw [← m.ofName?_name, h, n.ofName?_name])

def Setting.Kind : Setting → Type
  | .document | .region | .environment | .providerVersion | .terraformBinary => String
  | .profile => Option String
  | .preventDestroy | .debug => Bool
  | .backupDirectory => Option Files.Path
  | .lockTimeout | .retryBaseDelay => Double
  | .maxAttempts => Int
  | .imagePresets => List ImagePreset
  | .instanceTypeHints => List String

/-- What holds of a checked value of a setting. The double that is no number is not less than zero,
so it is not refused. -/
def Setting.Fits : (n : Setting) → n.Kind → Prop
  | .document, t => Given t
  | .region, t => Given t
  | .environment, t => Given t
  | .providerVersion, t => Given t
  | .terraformBinary, t => Given t
  | .profile, p => ∀ t, p = some t → Given t
  | .lockTimeout, d => d = .nan ∨ Double.IsAtLeastZero d
  | .retryBaseDelay, d => d = .nan ∨ Double.IsAtLeastZero d
  | .maxAttempts, (k : Int) => 1 ≤ k
  | .imagePresets, presets => presets ≠ []
  | _, _ => True

namespace Settings

def value (s : Settings) : (n : Setting) → n.Kind
  | .document => s.document
  | .region => s.region
  | .profile => s.profile
  | .environment => s.environment
  | .providerVersion => s.providerVersion
  | .preventDestroy => s.preventDestroy
  | .terraformBinary => s.terraformBinary
  | .backupDirectory => s.backupDirectory
  | .lockTimeout => s.lockTimeout
  | .maxAttempts => s.maxAttempts
  | .retryBaseDelay => s.retryBaseDelay
  | .debug => s.debug
  | .imagePresets => s.imagePresets
  | .instanceTypeHints => s.instanceTypeHints

def withValue (s : Settings) : (n : Setting) → n.Kind → Settings
  | .document, document => { s with document }
  | .region, region => { s with region }
  | .profile, profile => { s with profile }
  | .environment, environment => { s with environment }
  | .providerVersion, providerVersion => { s with providerVersion }
  | .preventDestroy, preventDestroy => { s with preventDestroy }
  | .terraformBinary, terraformBinary => { s with terraformBinary }
  | .backupDirectory, backupDirectory => { s with backupDirectory }
  | .lockTimeout, lockTimeout => { s with lockTimeout }
  | .maxAttempts, maxAttempts => { s with maxAttempts }
  | .retryBaseDelay, retryBaseDelay => { s with retryBaseDelay }
  | .debug, debug => { s with debug }
  | .imagePresets, imagePresets => { s with imagePresets }
  | .instanceTypeHints, instanceTypeHints => { s with instanceTypeHints }

/-- The value that a given one makes for a setting, or why it makes none. -/
def check (home : Files.Path) : (n : Setting) → Yaml.Value → Except Fault n.Kind
  | .document, v => checkText .document v
  | .region, v => checkText .region v
  | .environment, v => checkText .environment v
  | .providerVersion, v => checkText .providerVersion v
  | .terraformBinary, v => checkText .terraformBinary v
  | .profile, v => checkText? .profile v
  | .preventDestroy, v => (checkFlag .preventDestroy v).mapError Misuse.fault
  | .debug, v => (checkFlag .debug v).mapError Misuse.fault
  | .backupDirectory, v => checkDirectory home v
  | .lockTimeout, v => checkDouble .lockTimeout 0 v
  | .maxAttempts, v => (checkInteger .maxAttempts 1 v).mapError Misuse.fault
  | .retryBaseDelay, v => checkDouble .retryBaseDelay 0 v
  | .imagePresets, v => checkPresets v
  | .instanceTypeHints, v => checkHints v

theorem put_eq (home : Files.Path) (s : Settings) (n : Setting) (v : Yaml.Value) :
    s.put home n v = (check home n v).map (s.withValue n) := by
  cases n with
  | _ => rfl

theorem value_withValue (s : Settings) (n : Setting) (x : n.Kind) : (s.withValue n x).value n = x := by
  cases n with
  | _ => rfl

theorem value_withValue_of_ne {m n : Setting} (h : m ≠ n) (s : Settings) (x : n.Kind) :
    (s.withValue n x).value m = s.value m := by
  cases n with
  | _ =>
    cases m with
    | _ => first | rfl | exact absurd rfl h

theorem exists_of_map {ε α β : Type} {x : Except ε α} {f : α → β} {b : β} (h : x.map f = .ok b) :
    ∃ a, x = .ok a ∧ f a = b := by
  cases x with
  | error e => cases h
  | ok a => exact ⟨a, rfl, Except.ok.inj h⟩

theorem of_map_error {ε α β : Type} {x : Except ε α} {f : α → β} {e : ε} (h : x.map f = .error e) :
    x = .error e := by
  cases x with
  | error e' => exact congrArg Except.error (Except.error.inj h)
  | ok a => cases h

theorem of_mapError_ok {ε ε' α : Type} {x : Except ε α} {f : ε → ε'} {a : α}
    (h : x.mapError f = .ok a) : x = .ok a := by
  cases x with
  | error e => cases h
  | ok b => exact congrArg Except.ok (Except.ok.inj h)

theorem exists_of_mapError {ε ε' α : Type} {x : Except ε α} {f : ε → ε'} {e' : ε'}
    (h : x.mapError f = .error e') : ∃ e, x = .error e ∧ f e = e' := by
  cases x with
  | error e => exact ⟨e, rfl, Except.error.inj h⟩
  | ok a => cases h

/-! ## Building -/

/-- A value of a setting is made of a given one, or is another one where none is given. -/
def TakenFrom (home : Files.Path) (n : Setting) (given : Option Yaml.Value) (other x : n.Kind) : Prop :=
  match given with
  | some v => check home n v = .ok x
  | none => x = other

theorem TakenFrom.trans {home : Files.Path} {n : Setting} {a b : Option Yaml.Value} {x y z : n.Kind}
    (ha : TakenFrom home n a x y) (hb : TakenFrom home n b y z) :
    TakenFrom home n (b.or a) x z := by
  cases b with
  | some v => exact hb
  | none =>
    obtain rfl : z = y := hb
    exact ha

variable {home : Files.Path} {s s' : Settings} {n : Setting} {v : Yaml.Value} {f : Fault}
variable {values : List (String × Yaml.Value)}

theorem value_of_put {m : Setting} (h : s.put home m v = .ok s') :
    TakenFrom home n (if m.name = n.name then some v else none) (s.value n) (s'.value n) := by
  rw [put_eq] at h
  obtain ⟨x, hx, rfl⟩ := exists_of_map h
  split
  · next hname =>
    obtain rfl := Setting.eq_of_name hname
    rw [value_withValue]
    exact hx
  · next hname =>
    have hne : n ≠ m := fun h => hname (congrArg Setting.name h.symm)
    exact value_withValue_of_ne hne s x

/-- Settings that are given values have the checked value of the last one for a setting, or the one
that they had. -/
theorem value_of_putAll (h : s.putAll home values = .ok s') (n : Setting) :
    TakenFrom home n (Pairs.last? values n.name) (s.value n) (s'.value n) := by
  induction values generalizing s with
  | nil => exact congrArg (value · n) (Except.ok.inj h).symm
  | cons e values ih =>
    rw [putAll] at h
    rw [Pairs.last?_cons]
    split at h
    · next m hname =>
      obtain ⟨t, ht, h⟩ := exists_of_bind h
      obtain hkey := Setting.ofName?_eq_some_iff.1 hname
      rw [hkey]
      exact (value_of_put ht).trans (ih h)
    · next hname =>
      have hkey : e.1 ≠ n.name := by
        intro hkey
        rw [hkey, n.ofName?_name] at hname
        cases hname
      rw [if_neg hkey, Option.or_none]
      exact ih h

/-- Where values do not make settings, one of them does not pass its check. -/
theorem exists_of_putAll_error (h : s.putAll home values = .error f) :
    ∃ n v, (n.name, v) ∈ values ∧ check home n v = .error f := by
  induction values generalizing s with
  | nil => cases h
  | cons e values ih =>
    have hrest : ∀ {t : Settings}, t.putAll home values = .error f →
        ∃ n v, (n.name, v) ∈ e :: values ∧ check home n v = .error f := by
      intro t ht
      obtain ⟨n, v, hmem, hv⟩ := ih ht
      exact ⟨n, v, List.mem_cons_of_mem e hmem, hv⟩
    rw [putAll] at h
    split at h
    · next m hname =>
      cases hput : s.put home m e.2 with
      | error f' =>
        rw [hput] at h
        obtain rfl : f' = f := Except.error.inj h
        rw [put_eq] at hput
        refine ⟨m, e.2, ?_, of_map_error hput⟩
        rw [← Setting.ofName?_eq_some_iff.1 hname]
        exact List.mem_cons_self ..
      | ok t =>
        rw [hput] at h
        exact hrest h
    · exact hrest h

/-- The settings that hold where nothing is said. -/
def standard (workDirectory : Files.Path) : Settings :=
  { workDirectory }

theorem value_of_build {workDirectory : Files.Path} (h : build home workDirectory values = .ok s)
    (n : Setting) :
    TakenFrom home n (Pairs.last? values n.name) ((standard workDirectory).value n) (s.value n) :=
  value_of_putAll h n

/-! ## What checks pass -/

theorem checkText_given {t : String} (h : checkText n v = .ok t) : Given t := by
  have hgiven : ∀ {u : Except Fault String},
      (do let t ← u
          if Text.isBlankText t then throw (Misuse.notText n).fault else return t) = .ok t →
        Given t := by
    intro u h
    obtain ⟨t', -, h⟩ := exists_of_bind h
    split at h
    · cases h
    · next hgiven =>
      obtain rfl : t' = t := Except.ok.inj h
      exact Record.given_iff.2 (by simpa using hgiven)
  rw [checkText] at h
  split at h
  · exact hgiven h
  · exact hgiven h
  · cases h

theorem checkText?_given {p : Option String} (h : checkText? n v = .ok p) {t : String}
    (ht : p = some t) : Given t := by
  rw [checkText?] at h
  split at h
  · rw [← Except.ok.inj h] at ht
    cases ht
  · obtain ⟨t', ht', rfl⟩ := exists_of_map h
    exact Option.some.inj ht ▸ checkText_given ht'

theorem checkNumber_zero {k : Number} (h : checkNumber n 0 v = .ok k) :
    v.form = .scalar (.number k) ∧ k.lessThan 0 = false := by
  unfold checkNumber at h
  split at h
  · next hform =>
    split at h
    · cases h
    · next hless =>
      cases h
      exact ⟨hform, by simpa using hless⟩
  · cases h

/-- A number that is not below zero, as a double; it is no number only where none is given. -/
theorem checkDouble_zero {d : Double} (h : checkDouble n 0 v = .ok d) :
    d.IsAtLeastZero ∨ d = .nan ∧ v.form = .scalar (.number (.real .nan)) := by
  unfold checkDouble at h
  obtain ⟨k, hk, h⟩ := exists_of_bind h
  obtain ⟨hform, hless⟩ := checkNumber_zero (of_mapError_ok hk)
  cases k with
  | int i =>
    have hi : 0 ≤ i := by simpa [Number.lessThan] using hless
    cases hdouble : Double.ofInt? i with
    | none =>
      rw [Number.toDouble?, hdouble] at h
      cases h
    | some d' =>
      rw [Number.toDouble?, hdouble] at h
      obtain rfl := Except.ok.inj h
      exact .inl (Double.ofInt?_isAtLeastZero hdouble hi)
  | real d' =>
    obtain rfl : d' = d := Except.ok.inj h
    rcases (Double.lessThanInt_zero d').1 hless with rfl | hzero
    · exact .inr ⟨rfl, hform⟩
    · exact .inl hzero

theorem checkInteger_one {k : Int} (h : checkInteger n 1 v = .ok k) : 1 ≤ k := by
  unfold checkInteger at h
  split at h
  · cases h
  · split at h
    · cases h
    · next hless =>
      cases h
      simpa using hless
  · cases h

theorem checkPresets_ne_nil {presets : List ImagePreset} (h : checkPresets v = .ok presets) :
    presets ≠ [] := by
  unfold checkPresets at h
  split at h
  · next w ws _ =>
    rw [List.mapM_cons] at h
    obtain ⟨p, -, h⟩ := exists_of_bind h
    obtain ⟨ps, -, h⟩ := exists_of_bind h
    exact Except.ok.inj h ▸ List.cons_ne_nil p ps
  · cases h

theorem fits_of_check {x : n.Kind} (h : check home n v = .ok x) : n.Fits x := by
  cases n with
  | document => exact checkText_given h
  | region => exact checkText_given h
  | environment => exact checkText_given h
  | providerVersion => exact checkText_given h
  | terraformBinary => exact checkText_given h
  | profile => exact fun t => checkText?_given h
  | lockTimeout => exact (checkDouble_zero h).symm.imp_left And.left
  | retryBaseDelay => exact (checkDouble_zero h).symm.imp_left And.left
  | maxAttempts => exact checkInteger_one (of_mapError_ok h)
  | imagePresets => exact checkPresets_ne_nil h
  | _ => trivial

theorem TakenFrom.fits {given : Option Yaml.Value} {other x : n.Kind}
    (h : TakenFrom home n given other x) (hother : n.Fits other) : n.Fits x := by
  cases given with
  | some v => exact fits_of_check h
  | none =>
    obtain rfl : x = other := h
    exact hother

theorem fits_standard (workDirectory : Files.Path) (n : Setting) :
    n.Fits ((standard workDirectory).value n) := by
  cases n with
  | document => exact show Given "main.tf" from ⟨'m', by decide, by decide⟩
  | region => exact show Given "ap-northeast-1" from ⟨'a', by decide, by decide⟩
  | environment => exact show Given "staging" from ⟨'s', by decide, by decide⟩
  | providerVersion => exact show Given "~> 5.0" from ⟨'5', by decide, by decide⟩
  | terraformBinary => exact show Given "terraform" from ⟨'t', by decide, by decide⟩
  | profile => exact nofun
  | lockTimeout => exact .inr (.inl rfl)
  | retryBaseDelay => exact .inr (.inl rfl)
  | maxAttempts => exact le_rfl
  | imagePresets => exact List.cons_ne_nil _ _
  | _ => trivial

/-! ## What checks refuse -/

/-- A value is another one or stands in it, as an item or under a key. -/
inductive Holds : Yaml.Value → Yaml.Value → Prop
  | self (v : Yaml.Value) : Holds v v
  | item {v w x : Yaml.Value} {items : List Yaml.Value} (form : v.form = .list items)
      (mem : w ∈ items) (rest : Holds w x) : Holds v x
  | entry {v w x : Yaml.Value} {entries : List (Yaml.Scalar × Yaml.Value)} {key : Yaml.Scalar}
      (form : v.form = .mapping entries) (mem : (key, w) ∈ entries) (rest : Holds w x) : Holds v x

/-- Why a value that is given for a setting is refused: it is reported as a misuse; or it is an
integer beyond the range of doubles, a directory below an unknown home, or an integer of too many
digits where a text is made of it, none of which is reported as one. -/
inductive Refusal (home : Files.Path) (n : Setting) (v : Yaml.Value) : Fault → Prop
  | misuse (m : Misuse) : Refusal home n v m.fault
  | tooLarge (k : Int) (isDouble : n = .lockTimeout ∨ n = .retryBaseDelay)
      (given : v.form = .scalar (.number (.int k))) (nonneg : 0 ≤ k)
      (beyond : 2 ^ 1024 ≤ k.natAbs + 2 ^ 970) : Refusal home n v .tooLarge
  | noHome (isDirectory : n = .backupDirectory) (given : v.isNull = false)
      (unknown : (Files.Path.ofText v.asText).expandHome home = none) : Refusal home n v .noHome
  | tooManyDigits (w : Yaml.Value)
      (isText : n ∉ [.preventDestroy, .debug, .lockTimeout, .maxAttempts, .retryBaseDelay])
      (held : Holds v w) (long : w.writesLong = true) : Refusal home n v .tooManyDigits

theorem Refusal.of_mapError {α : Type} {x : Except Misuse α} (h : x.mapError Misuse.fault = .error f) :
    Refusal home n v f := by
  obtain ⟨m, -, rfl⟩ := exists_of_mapError h
  exact .misuse m

/-- A text is not made of a value: it is misused, or an integer in it has too many digits. -/
inductive Textless (v : Yaml.Value) : Fault → Prop
  | misuse (m : Misuse) : Textless v m.fault
  | long (w : Yaml.Value) (held : Holds v w) (long : w.writesLong = true) : Textless v .tooManyDigits

theorem Textless.item {w : Yaml.Value} {items : List Yaml.Value} (h : Textless w f)
    (form : v.form = .list items) (mem : w ∈ items) : Textless v f := by
  cases h with
  | misuse m => exact .misuse m
  | long x held long => exact .long x (.item form mem held) long

theorem Textless.entry {w : Yaml.Value} {entries : List (Yaml.Scalar × Yaml.Value)} {key : Yaml.Scalar}
    (h : Textless w f) (form : v.form = .mapping entries) (mem : (key, w) ∈ entries) :
    Textless v f := by
  cases h with
  | misuse m => exact .misuse m
  | long x held long => exact .long x (.entry form mem held) long

theorem Textless.refusal (h : Textless v f)
    (isText : n ∉ [.preventDestroy, .debug, .lockTimeout, .maxAttempts, .retryBaseDelay]) :
    Refusal home n v f := by
  cases h with
  | misuse m => exact .misuse m
  | long w held long => exact .tooManyDigits w isText held long

theorem exists_or_of_bind_error {α β : Type} {x : Except Fault α} {next : α → Except Fault β}
    (h : x >>= next = .error f) : x = .error f ∨ ∃ a, x = .ok a ∧ next a = .error f := by
  cases x with
  | error f' => exact .inl (congrArg Except.error (Except.error.inj h))
  | ok a => exact .inr ⟨a, rfl, h⟩

theorem textless_of_textOf (h : textOf v = .error f) : Textless v f := by
  rw [textOf] at h
  split at h
  · next hlong =>
    cases h
    exact .long v (.self v) hlong
  · cases h

theorem textless_of_checkText (h : checkText n v = .error f) : Textless v f := by
  have hgiven : ∀ {u : Except Fault String}, u = textOf v →
      (do let t ← u
          if Text.isBlankText t then throw (Misuse.notText n).fault else return t) = .error f →
        Textless v f := by
    rintro u rfl h
    rcases exists_or_of_bind_error h with h | ⟨t, -, h⟩
    · exact textless_of_textOf h
    · split at h
      · cases h
        exact .misuse _
      · cases h
  rw [checkText] at h
  split at h
  · exact hgiven rfl h
  · exact hgiven rfl h
  · cases h
    exact .misuse _

theorem textless_of_checkText? (h : checkText? n v = .error f) : Textless v f := by
  rw [checkText?] at h
  split at h
  · cases h
  · exact textless_of_checkText (of_map_error h)

theorem exists_of_mapM_error {α β : Type} {g : α → Except Fault β} {as : List α}
    (h : as.mapM g = .error f) : ∃ a ∈ as, g a = .error f := by
  induction as with
  | nil => cases h
  | cons a as ih =>
    rw [List.mapM_cons] at h
    rcases exists_or_of_bind_error h with h | ⟨b, -, h⟩
    · exact ⟨a, List.mem_cons_self .., h⟩
    · rcases exists_or_of_bind_error h with h | ⟨bs, -, h⟩
      · obtain ⟨a', ha', h⟩ := ih h
        exact ⟨a', List.mem_cons_of_mem a ha', h⟩
      · cases h

theorem textless_of_presetField {entries : List (Yaml.Scalar × Yaml.Value)} {field : String}
    {other : Option String} (hform : v.form = .mapping entries)
    (h : presetField entries field other = .error f) : Textless v f := by
  unfold presetField at h
  split at h
  · next w hw =>
    obtain ⟨e, he, rfl⟩ := Option.map_eq_some_iff.1 hw
    exact (textless_of_textOf h).entry hform (List.mem_of_find?_eq_some he)
  · cases h
  · cases h
    exact .misuse _

theorem textless_of_checkPreset (h : checkPreset v = .error f) : Textless v f := by
  unfold checkPreset at h
  split at h
  · next entries hform =>
    rcases exists_or_of_bind_error h with h | ⟨_, -, h⟩
    · exact textless_of_presetField hform h
    rcases exists_or_of_bind_error h with h | ⟨_, -, h⟩
    · exact textless_of_presetField hform h
    rcases exists_or_of_bind_error h with h | ⟨_, -, h⟩
    · exact textless_of_presetField hform h
    · cases h
  · cases h
    exact .misuse _

theorem textless_of_checkPresets (h : checkPresets v = .error f) : Textless v f := by
  unfold checkPresets at h
  split at h
  · next w ws hform =>
    obtain ⟨x, hx, h⟩ := exists_of_mapM_error h
    exact (textless_of_checkPreset h).item hform hx
  · cases h
    exact .misuse _

theorem textless_of_checkHints (h : checkHints v = .error f) : Textless v f := by
  unfold checkHints at h
  split at h
  · next ws hform =>
    obtain ⟨x, hx, h⟩ := exists_of_mapM_error h
    exact (textless_of_textOf h).item hform hx
  · cases h
    exact .misuse _

theorem refusal_of_checkDirectory (h : checkDirectory home v = .error f) :
    Refusal home .backupDirectory v f := by
  rw [checkDirectory] at h
  split at h
  · cases h
  · next hgiven =>
    rcases exists_or_of_bind_error h with h | ⟨t, ht, h⟩
    · exact (textless_of_textOf h).refusal (by decide)
    · split at h
      · cases h
      · next hunknown =>
        have htext : v.asText = t := by
          rw [textOf] at ht
          split at ht
          · cases ht
          · exact Except.ok.inj ht
        cases h
        exact .noHome rfl (by simpa using hgiven) (htext ▸ hunknown)

theorem refusal_of_checkDouble (hn : n = .lockTimeout ∨ n = .retryBaseDelay)
    (h : checkDouble n 0 v = .error f) : Refusal home n v f := by
  unfold checkDouble at h
  cases hnumber : (checkNumber n 0 v).mapError Misuse.fault with
  | error f' =>
    rw [hnumber] at h
    obtain rfl : f' = f := Except.error.inj h
    exact .of_mapError hnumber
  | ok k =>
    rw [hnumber] at h
    obtain ⟨hform, hless⟩ := checkNumber_zero (of_mapError_ok hnumber)
    cases k with
    | int i =>
      have hi : 0 ≤ i := by simpa [Number.lessThan] using hless
      cases hdouble : Double.ofInt? i with
      | none =>
        simp only [Number.toDouble?, bind, Except.bind, hdouble] at h
        obtain rfl : Fault.tooLarge = f := Except.error.inj h
        exact .tooLarge i hn hform hi ((Double.ofInt?_eq_none_iff i).1 hdouble)
      | some d =>
        simp only [Number.toDouble?, bind, Except.bind, hdouble] at h
        cases h
    | real d => cases h

theorem refusal_of_check (h : check home n v = .error f) : Refusal home n v f := by
  cases n with
  | lockTimeout => exact refusal_of_checkDouble (.inl rfl) h
  | retryBaseDelay => exact refusal_of_checkDouble (.inr rfl) h
  | backupDirectory => exact refusal_of_checkDirectory h
  | preventDestroy | debug | maxAttempts => exact .of_mapError h
  | profile => exact (textless_of_checkText? h).refusal (by decide)
  | imagePresets => exact (textless_of_checkPresets h).refusal (by decide)
  | instanceTypeHints => exact (textless_of_checkHints h).refusal (by decide)
  | _ => exact (textless_of_checkText h).refusal (by decide)

/-! ## Built settings -/

/-- A wait is no number exactly where none is given as its last value. -/
theorem TakenFrom.eq_nan_iff {given : Option Yaml.Value} {other x : n.Kind} {nan : n.Kind}
    (h : TakenFrom home n given other x) (hother : other ≠ nan)
    (hnan : ∀ v, check home n v = .ok nan ↔ v.form = .scalar (.number (.real .nan))) :
    x = nan ↔ ∃ v, given = some v ∧ v.form = .scalar (.number (.real .nan)) := by
  cases given with
  | none =>
    obtain rfl : x = other := h
    exact iff_of_false hother nofun
  | some v =>
    have hx : check home n v = .ok x := h
    simp only [Option.some.injEq, exists_eq_left', ← hnan, hx, Except.ok.injEq]

theorem checkDouble_eq_nan_iff :
    checkDouble n 0 v = .ok .nan ↔ v.form = .scalar (.number (.real .nan)) := by
  constructor
  · intro h
    rcases checkDouble_zero h with hzero | ⟨-, hform⟩
    · exact hzero.elim
    · exact hform
  · intro h
    rw [checkDouble, checkNumber, h]
    rfl

/-- However values are given, either one of them is refused, or each setting has a value that fits
it. What is no number slips past the check of a wait. -/
theorem build_sound (home workDirectory : Files.Path) (values : List (String × Yaml.Value)) :
    match build home workDirectory values with
    | .ok s => (∀ n : Setting, n.Fits (s.value n)) ∧
      (s.lockTimeout = .nan ↔ ∃ v, Pairs.last? values Setting.lockTimeout.name = some v ∧
        v.form = .scalar (.number (.real .nan))) ∧
      (s.retryBaseDelay = .nan ↔ ∃ v, Pairs.last? values Setting.retryBaseDelay.name = some v ∧
        v.form = .scalar (.number (.real .nan)))
    | .error f => ∃ n v, (n.name, v) ∈ values ∧ Refusal home n v f := by
  cases hbuild : build home workDirectory values with
  | ok s =>
    have htaken := value_of_build hbuild
    have hlock : Double.ofDecimal false 10 0 ≠ .nan := by decide
    have hdelay : Double.ofDecimal false 2 0 ≠ .nan := by decide
    refine ⟨fun n => (htaken n).fits (fits_standard workDirectory n), ?_, ?_⟩
    · exact (htaken .lockTimeout).eq_nan_iff hlock fun _ => checkDouble_eq_nan_iff
    · exact (htaken .retryBaseDelay).eq_nan_iff hdelay fun _ => checkDouble_eq_nan_iff
  | error f =>
    obtain ⟨n, v, hmem, hv⟩ := exists_of_putAll_error hbuild
    exact ⟨n, v, hmem, refusal_of_check hv⟩

example : build ⟨1, ["root"]⟩ ⟨1, ["srv"]⟩
      [("lock_timeout", .ofScalar (.number (.real .nan)))] =
    .ok { workDirectory := ⟨1, ["srv"]⟩, lockTimeout := .nan } := by
  decide

end Settings
end InstanceInventory
