import InstanceInventory.Proofs.Text.Trimmed
import InstanceInventory.Record.Key
import Mathlib.Data.List.Chain

/-! # Resource keys

* `Record.isKeyChar_of_mem`: the characters of a key.
* `Record.runs`, `Record.beginsOther`, `Record.endsOther`: what of a name goes into its key.
* `Record.keyFrom_spelled`: a key is spelled from the runs and the two ends.
* `Record.runs_keyFrom` and the like: the runs and the ends can be read back from the key.
* `Record.keys_canonical`: which names have the same key; a key is its own key.
-/

namespace InstanceInventory.Record
set_option autoImplicit false
variable {c : Char} {cs : List Char}

/-! ## Letters and digits -/

theorem isAlphanum_iff : c.isAlphanum = true ↔
    (65 ≤ c.toNat ∧ c.toNat ≤ 90) ∨ (97 ≤ c.toNat ∧ c.toNat ≤ 122) ∨ (48 ≤ c.toNat ∧ c.toNat ≤ 57) := by
  have hranges : c.isAlphanum = (decide (65 ≤ c.val ∧ c.val ≤ 90) ||
      (decide (97 ≤ c.val) && decide (c.val ≤ 122)) || (decide (48 ≤ c.val) && decide (c.val ≤ 57))) :=
    rfl
  rw [hranges]
  simp only [Bool.or_eq_true, Bool.and_eq_true, decide_eq_true_eq, UInt32.le_iff_toNat_le, or_assoc]
  rfl

theorem isAlphanumeric_eq (c : Char) : isAlphanumeric c = c.isAlphanum := by
  rw [Bool.eq_iff_iff, isAlphanum_iff]
  simp only [isAlphanumeric, Bool.or_eq_true, Bool.and_eq_true, decide_eq_true_eq, or_assoc]
  rfl

theorem not_blank_of_isAlphanum (hc : c.isAlphanum = true) : Text.isBlank c = false := by
  rw [isAlphanum_iff] at hc
  simp only [Text.isBlank, Text.blankRanges, List.any_cons, List.any_nil, Bool.or_eq_false_iff,
    Bool.and_eq_false_iff, decide_eq_false_iff_not, and_true]
  omega

/-! ## The characters of a key -/

/-- A character of a resource key. -/
def isKeyChar (c : Char) : Bool :=
  isAlphanumeric c || c == '_'

theorem isKeyChar_of_mem_keyFrom (inRun : Bool) (cs : List Char) :
    ∀ c ∈ keyFrom inRun cs, isKeyChar c = true := by
  induction cs generalizing inRun with
  | nil => exact fun _ hc => nomatch hc
  | cons c cs ih =>
    unfold keyFrom
    split
    · next hc => exact List.forall_mem_cons.2 ⟨by rw [isKeyChar, hc, Bool.true_or], ih false⟩
    · split
      · exact ih true
      · exact List.forall_mem_cons.2 ⟨rfl, ih true⟩

theorem isKeyChar_of_mem (name : String) : ∀ c ∈ (keyOf name).toList, isKeyChar c = true := by
  rw [keyOf, String.toList_ofList]
  exact isKeyChar_of_mem_keyFrom false _

theorem isKeyChar_iff : isKeyChar c = true ↔ c.isAlphanum = true ∨ c = '_' := by
  rw [isKeyChar, isAlphanumeric_eq, Bool.or_eq_true, beq_iff_eq]

theorem ne_of_isKeyChar {d : Char} (hc : isKeyChar c = true) (hd : isKeyChar d = false) : c ≠ d := by
  rintro rfl
  rw [hc] at hd
  cases hd

theorem isKeyChar_bound (hc : isKeyChar c = true) : 0x20 ≤ c.toNat := by
  rcases isKeyChar_iff.1 hc with hc | rfl
  · rw [isAlphanum_iff] at hc
    omega
  · decide

theorem not_blank_of_isKeyChar (hc : isKeyChar c = true) : Text.isBlank c = false := by
  rcases isKeyChar_iff.1 hc with hc | rfl
  · exact not_blank_of_isAlphanum hc
  · decide

theorem keyFrom_cons (inRun : Bool) (c : Char) (cs : List Char) :
    keyFrom inRun (c :: cs) = if c.isAlphanum then c :: keyFrom false cs
      else if inRun then keyFrom true cs else '_' :: keyFrom true cs := by
  rw [keyFrom, isAlphanumeric_eq]

theorem any_keyFrom (inRun : Bool) :
    (keyFrom inRun cs).any (· != '_') = true ↔ ∃ c ∈ cs, c.isAlphanum = true := by
  induction cs generalizing inRun with
  | nil => simp [keyFrom]
  | cons c cs ih =>
    rw [keyFrom_cons, List.exists_mem_cons_iff]
    by_cases hc : c.isAlphanum = true
    · have hmark : c ≠ '_' := by
        rintro rfl
        cases hc
      simp [hc, hmark]
    · rw [if_neg hc]
      cases inRun <;> simp [ih, hc]

/-- No two characters in a row are underscores. -/
def Spaced (cs : List Char) : Prop :=
  cs.IsChain fun a b => ¬ (a = '_' ∧ b = '_')

theorem spaced_cons_keyFrom {inRun : Bool} (hc : c = '_' → inRun = true) :
    Spaced (c :: keyFrom inRun cs) := by
  induction cs generalizing c inRun with
  | nil => exact List.isChain_singleton _
  | cons d ds ih =>
    rw [keyFrom_cons]
    split_ifs with hd hrun
    · have hmark : d ≠ '_' := by
        rintro rfl
        cases hd
      exact List.isChain_cons_cons.2 ⟨fun h => hmark h.2, ih fun h => absurd h hmark⟩
    · exact ih fun _ => rfl
    · exact List.isChain_cons_cons.2 ⟨fun h => hrun (hc h.1), ih fun _ => rfl⟩

theorem spaced_keyFrom (inRun : Bool) (cs : List Char) : Spaced (keyFrom inRun cs) := by
  -- A letter in front changes nothing.
  have hletter : Spaced ('a' :: keyFrom inRun cs) := spaced_cons_keyFrom nofun
  exact hletter.of_cons

/-! ## What of a name goes into its key -/

/-- A character that is neither a letter nor a digit. -/
def isOther (c : Char) : Bool :=
  !c.isAlphanum

/-- The maximal runs of letters and digits, in order. -/
def runs (cs : List Char) : List (List Char) :=
  (cs.splitOnP isOther).filter fun run => !run.isEmpty

/-- Whether a text begins with a character that is neither a letter nor a digit. -/
def beginsOther (cs : List Char) : Bool :=
  cs.head?.any isOther

/-- Whether a text ends with a character that is neither a letter nor a digit. -/
def endsOther (cs : List Char) : Bool :=
  cs.getLast?.any isOther

theorem head?_splitOnP (cs : List Char) :
    (cs.splitOnP isOther).head? = some (cs.takeWhile Char.isAlphanum) := by
  induction cs with
  | nil => rfl
  | cons c cs ih =>
    rw [List.splitOnP_cons_eq_if_modifyHead, List.takeWhile_cons, isOther]
    cases c.isAlphanum with
    | true => simp [ih]
    | false => rfl

theorem runs_cons_other (hc : isOther c = true) : runs (c :: cs) = runs cs := by
  rw [runs, List.splitOnP_cons_eq_if_modifyHead, if_pos hc]
  rfl

/-- A letter or digit lengthens the run after it, or is a run of its own. -/
theorem runs_cons (hc : c.isAlphanum = true) :
    runs (c :: cs) = if cs.head?.any Char.isAlphanum then (runs cs).modifyHead (c :: ·)
      else [c] :: runs cs := by
  obtain ⟨segments, hsegments⟩ : ∃ segments,
      cs.splitOnP isOther = cs.takeWhile Char.isAlphanum :: segments :=
    ⟨_, (List.cons_head?_tail (head?_splitOnP cs)).symm⟩
  rw [runs, runs, List.splitOnP_cons_eq_if_modifyHead, if_neg (by rw [isOther, hc]; nofun), hsegments]
  cases cs with
  | nil => rfl
  | cons d ds =>
    by_cases hd : d.isAlphanum = true
    · simp [hd]
    · simp [hd]

theorem runs_ne_nil (h : cs.head?.any Char.isAlphanum = true) : runs cs ≠ [] := by
  induction cs with
  | nil => cases h
  | cons c cs ih =>
    have hc : c.isAlphanum = true := h
    rw [runs_cons hc]
    split_ifs with hcs
    · exact fun hnil => ih hcs (List.modifyHead_eq_nil_iff.1 hnil)
    · exact List.cons_ne_nil _ _

theorem endsOther_cons_cons (c d : Char) (cs : List Char) :
    endsOther (c :: d :: cs) = endsOther (d :: cs) := by
  rw [endsOther, endsOther, List.getLast?_cons_cons]

/-- Only the class of the last character matters for the end. -/
theorem endsOther_cons_congr {d : Char} (h : isOther c = isOther d) (cs : List Char) :
    endsOther (c :: cs) = endsOther (d :: cs) := by
  cases cs with
  | nil => exact h
  | cons e es => rw [endsOther_cons_cons, endsOther_cons_cons]

theorem isOther_of_not (hc : ¬ c.isAlphanum = true) : isOther c = true := by
  rw [isOther, Bool.not_eq_true']
  exact eq_false_of_ne_true hc

/-! ## Spelling a key -/

/-- Runs, each behind an underscore. -/
def marked (rs : List (List Char)) : List Char :=
  rs.flatMap ('_' :: ·)

def ending (cs : List Char) : List Char :=
  if endsOther cs then ['_'] else []

/-- A key is spelled from the runs of its text: each stands behind an underscore, but the first only
where the text begins with another character, and an underscore comes last where it ends with one. The
second form is for a text in a run of other characters, whose underscore is in front. -/
theorem keyFrom_spelled (cs : List Char) :
    keyFrom false cs = (if beginsOther cs then marked (runs cs) else (marked (runs cs)).tail) ++
        ending cs ∧
      '_' :: keyFrom true cs = marked (runs cs) ++ ending ('_' :: cs) := by
  induction cs with
  | nil => exact ⟨rfl, rfl⟩
  | cons c cs ih =>
    have hends : ending ('_' :: c :: cs) = ending (c :: cs) := by
      rw [ending, ending, endsOther_cons_cons]
    rw [keyFrom_cons, keyFrom_cons, hends]
    by_cases hc : c.isAlphanum = true
    · have hfirst : c :: keyFrom false cs = (marked (runs (c :: cs))).tail ++ ending (c :: cs) := by
        rw [ih.1, runs_cons hc]
        cases cs with
        | nil => simp [marked, runs, ending, endsOther, isOther, hc, beginsOther]
        | cons d ds =>
          rw [ending, ending, endsOther_cons_cons]
          by_cases hd : d.isAlphanum = true
          · -- The run that the text begins with goes on.
            have hne : runs (d :: ds) ≠ [] := runs_ne_nil hd
            obtain ⟨run, rest, hruns⟩ := List.exists_cons_of_ne_nil hne
            simp [hruns, marked, beginsOther, isOther, hd]
          · simp [marked, beginsOther, isOther, hd]
      have hsplit : marked (runs (c :: cs)) = '_' :: (marked (runs (c :: cs))).tail := by
        have hne : runs (c :: cs) ≠ [] := runs_ne_nil hc
        obtain ⟨run, rest, hruns⟩ := List.exists_cons_of_ne_nil hne
        rw [hruns]
        rfl
      rw [if_pos hc, if_pos hc, hsplit, List.tail_cons, List.cons_append, ← hfirst]
      exact ⟨by simp [beginsOther, isOther, hc, hfirst], rfl⟩
    · have hother := isOther_of_not hc
      have hmark : ending (c :: cs) = ending ('_' :: cs) := by
        rw [ending, ending, endsOther_cons_congr (hother.trans (show true = isOther '_' from rfl))]
      rw [if_neg hc, if_neg hc, hmark, runs_cons_other hother, if_neg Bool.false_ne_true, if_pos rfl]
      exact ⟨by rw [if_pos (show beginsOther (c :: cs) = true from hother), ih.2], ih.2⟩

/-! ## Reading a key back -/

theorem head?_keyFrom (cs : List Char) :
    (keyFrom false cs).head?.map Char.isAlphanum = cs.head?.map Char.isAlphanum := by
  cases cs with
  | nil => rfl
  | cons c cs =>
    rw [keyFrom_cons]
    by_cases hc : c.isAlphanum = true
    · rw [if_pos hc]
      rfl
    · simp [hc]

/-- Of which class the first character is can be read back. -/
theorem any_head?_keyFrom (p : Bool → Bool) (cs : List Char) :
    (keyFrom false cs).head?.any (fun c => p c.isAlphanum) = cs.head?.any fun c => p c.isAlphanum := by
  have h := congrArg (Option.any p) (head?_keyFrom cs)
  rwa [Option.any_map, Option.any_map] at h

theorem beginsOther_keyFrom (cs : List Char) : beginsOther (keyFrom false cs) = beginsOther cs :=
  any_head?_keyFrom (! ·) cs

theorem runs_keyFrom (inRun : Bool) (cs : List Char) : runs (keyFrom inRun cs) = runs cs := by
  induction cs generalizing inRun with
  | nil => rfl
  | cons c cs ih =>
    rw [keyFrom_cons]
    by_cases hc : c.isAlphanum = true
    · have hhead : (keyFrom false cs).head?.any Char.isAlphanum = cs.head?.any Char.isAlphanum :=
        any_head?_keyFrom id cs
      rw [if_pos hc, runs_cons hc, runs_cons hc, ih, hhead]
    · rw [if_neg hc, runs_cons_other (isOther_of_not hc)]
      cases inRun with
      | true => exact ih true
      | false => exact (runs_cons_other rfl).trans (ih true)

/-- The end can be read back behind any character; that one tells whether a run of other characters is
being read. -/
theorem endsOther_cons_keyFrom (c : Char) (cs : List Char) :
    endsOther (c :: keyFrom (isOther c) cs) = endsOther (c :: cs) := by
  induction cs generalizing c with
  | nil => rfl
  | cons d ds ih =>
    rw [keyFrom_cons, endsOther_cons_cons]
    by_cases hd : d.isAlphanum = true
    · have hrun : isOther d = false := by rw [isOther, hd]; rfl
      rw [if_pos hd, endsOther_cons_cons, ← hrun, ih]
    · have hother := isOther_of_not hd
      rw [if_neg hd, ← ih d, hother]
      cases hc : isOther c with
      | true => rw [if_pos rfl, endsOther_cons_congr (hc.trans hother.symm)]
      | false =>
        rw [if_neg Bool.false_ne_true, endsOther_cons_cons]
        exact (endsOther_cons_congr (hother.trans (show true = isOther '_' from rfl)) _).symm

theorem endsOther_keyFrom (cs : List Char) : endsOther (keyFrom false cs) = endsOther cs := by
  cases cs with
  | nil => rfl
  | cons c cs =>
    obtain ⟨d, ds, hkey⟩ : ∃ d ds, keyFrom false (c :: cs) = d :: ds := by
      rw [keyFrom_cons, if_neg Bool.false_ne_true]
      split
      · exact ⟨_, _, rfl⟩
      · exact ⟨_, _, rfl⟩
    -- A letter in front does not change the end.
    have h := endsOther_cons_keyFrom 'a' (c :: cs)
    rw [show isOther 'a' = false from rfl, hkey, endsOther_cons_cons, endsOther_cons_cons] at h
    rw [hkey, h]

/-! ## Canonical keys -/

/-- What of a text goes into its key: its runs, and the classes of the characters at its ends. -/
def SameParts (cs ds : List Char) : Prop :=
  runs cs = runs ds ∧ beginsOther cs = beginsOther ds ∧ endsOther cs = endsOther ds

theorem keyFrom_eq_iff (cs ds : List Char) :
    keyFrom false cs = keyFrom false ds ↔ SameParts cs ds := by
  constructor
  · intro h
    exact ⟨by rw [← runs_keyFrom false cs, h, runs_keyFrom],
      by rw [← beginsOther_keyFrom cs, h, beginsOther_keyFrom],
      by rw [← endsOther_keyFrom cs, h, endsOther_keyFrom]⟩
  · rintro ⟨hruns, hbegins, hends⟩
    rw [(keyFrom_spelled cs).1, (keyFrom_spelled ds).1, ending, ending, hruns, hbegins, hends]

theorem keyFrom_keyFrom (cs : List Char) : keyFrom false (keyFrom false cs) = keyFrom false cs :=
  (keyFrom_eq_iff _ _).2 ⟨runs_keyFrom false cs, beginsOther_keyFrom cs, endsOther_keyFrom cs⟩

theorem keyOf_keyOf (name : String) : keyOf (keyOf name) = keyOf name := by
  have hblank : ∀ c ∈ (keyOf name).toList, Text.isBlank c = false :=
    fun c hc => not_blank_of_isKeyChar (isKeyChar_of_mem name c hc)
  rw [keyOf, Text.trimChars_of_not_blank hblank, keyOf, String.toList_ofList, keyFrom_keyFrom]

theorem spaced_keyOf (name : String) : ¬ ['_', '_'] <:+: (keyOf name).toList := by
  intro h
  rw [keyOf, String.toList_ofList] at h
  obtain ⟨before, after, hsplit⟩ := h
  have hpair : Spaced (before ++ ['_', '_'] ++ after) := hsplit ▸ spaced_keyFrom false _
  exact (List.isChain_cons_cons.1 hpair.left_of_append.right_of_append).1 ⟨rfl, rfl⟩

/-- Two names have the same key just where, without the blanks around them, they have the same runs of
letters and digits and agree on whether they begin and whether they end with another character. A key
holds letters, digits and single underscores only, and it is its own key. -/
theorem keys_canonical (name other : String) :
    (keyOf name = keyOf other ↔
      SameParts (Text.trimChars name.toList) (Text.trimChars other.toList)) ∧
    (∀ c ∈ (keyOf name).toList, c.isAlphanum = true ∨ c = '_') ∧
    ¬ ['_', '_'] <:+: (keyOf name).toList ∧ keyOf (keyOf name) = keyOf name := by
  refine ⟨?_, fun c hc => isKeyChar_iff.1 (isKeyChar_of_mem name c hc), spaced_keyOf name,
    keyOf_keyOf name⟩
  rw [← keyFrom_eq_iff, keyOf, keyOf, String.ofList_inj]

/-- Names that differ in their separators only collide; one that begins with a separator does not. -/
example : keyOf " web  server-1" = keyOf "web.server 1" ∧ keyOf "-web" ≠ keyOf "web" := by decide

end InstanceInventory.Record
