import TokenAtlas.CommandLine.Options

/-! The grammar of the options. A command line is read as a row of groups: a flag, or the option
for the output mode with a text that names one. Main statement: exactly the rows of groups are
accepted, each flag that occurs brings its setting to its target, the last mode counts, and
neither the order of the flags nor their number matters. -/

namespace TokenAtlas.CommandLine

namespace Flag

/-- The setting that a flag moves. -/
def setting (o : Options) : Flag → Bool
  | .byLine => o.stream.byLine
  | .trim => o.stream.trims
  | .rawGranularity => o.stream.refine
  | .keepCommentWhitespace => o.stream.apart
  | .compact => o.pretty

/-- Where a flag moves its setting. -/
def target : Flag → Bool
  | .byLine => true
  | .trim => true
  | .rawGranularity => false
  | .keepCommentWhitespace => false
  | .compact => false

theorem setting_apply (f g : Flag) (o : Options) :
    f.setting (g.apply o) = if g = f then f.target else f.setting o := by
  cases f <;> cases g <;> rfl

theorem setting_setMode (f : Flag) (o : Options) (m : OutputMode) :
    f.setting (o.setMode m) = f.setting o := by
  cases f <;> rfl

theorem mode_apply (f : Flag) (o : Options) : (f.apply o).stream.mode = o.stream.mode := by
  cases f <;> rfl

theorem metrics_apply (f : Flag) (o : Options) :
    (f.apply o).stream.metrics = o.stream.metrics := by
  cases f <;> rfl

theorem text_ne_modeOption (f : Flag) : f.text ≠ modeOption := by cases f <;> decide

theorem text_of_ofText? {s : String} {f : Flag} (h : ofText? s = some f) : f.text = s := by
  simpa using List.find?_some h

end Flag

/-- Options are equal if no flag, no mode and no other preference tells them apart. -/
theorem Options.eq_of_settings {a b : Options} (hflag : ∀ f : Flag, f.setting a = f.setting b)
    (hmode : a.stream.mode = b.stream.mode) (hmetrics : a.stream.metrics = b.stream.metrics) :
    a = b := by
  obtain ⟨⟨_, _, _, _, _, _⟩, _⟩ := a
  obtain ⟨⟨_, _, _, _, _, _⟩, _⟩ := b
  obtain rfl := hflag .byLine
  obtain rfl := hflag .trim
  obtain rfl := hflag .rawGranularity
  obtain rfl := hflag .keepCommentWhitespace
  obtain rfl := hflag .compact
  obtain rfl := hmode
  obtain rfl := hmetrics
  rfl

/-- A flag, or the option for the mode with a text that names a mode. -/
inductive OptionGroup
  | flag (f : Flag)
  | mode (text : String) (m : OutputMode) (named : OutputMode.ofText? text = some m)

namespace OptionGroup

/-- The arguments of a group. -/
def words : OptionGroup → List String
  | .flag f => [f.text]
  | .mode text _ _ => [modeOption, text]

def flag? : OptionGroup → Option Flag
  | .flag f => some f
  | .mode .. => none

def mode? : OptionGroup → Option OutputMode
  | .flag _ => none
  | .mode _ m _ => some m

def apply (o : Options) : OptionGroup → Options
  | .flag f => f.apply o
  | .mode _ m _ => o.setMode m

/-- What groups make of the preferences `p`. A setting is another one exactly if its flag occurs
and moves it. -/
structure Chosen (p : Preferences) (gs : List OptionGroup) (o : Options) : Prop where
  moved_iff : ∀ f : Flag, f.setting o ≠ f.setting (.ofPreferences p) ↔
    f ∈ gs.filterMap flag? ∧ f.setting (.ofPreferences p) ≠ f.target
  mode_eq : (o.preferences p).stream.mode = (gs.filterMap mode?).getLast?.getD p.stream.mode
  metrics_eq : (o.preferences p).stream.metrics = p.stream.metrics
  files_eq : (o.preferences p).files = p.files
  log_eq : (o.preferences p).log = p.log

/-! ### What groups do -/

theorem setting_foldl (f : Flag) (gs : List OptionGroup) (o : Options) :
    f.setting (gs.foldl apply o) =
      if f ∈ gs.filterMap flag? then f.target else f.setting o := by
  induction gs generalizing o with
  | nil => rfl
  | cons g gs ih =>
    rw [List.foldl_cons, ih]
    cases g with
    | flag g =>
      by_cases hsame : g = f
      · simp [apply, flag?, Flag.setting_apply, hsame]
      · simp [apply, flag?, Flag.setting_apply, hsame, Ne.symm hsame]
    | mode text m named => simp [apply, flag?, Flag.setting_setMode]

theorem mode_foldl (gs : List OptionGroup) (o : Options) :
    (gs.foldl apply o).stream.mode = (gs.filterMap mode?).getLast?.getD o.stream.mode := by
  induction gs generalizing o with
  | nil => rfl
  | cons g gs ih =>
    rw [List.foldl_cons, ih]
    cases g with
    | flag f => simp [apply, mode?, Flag.mode_apply]
    | mode text m named => simp [apply, mode?, Options.setMode, List.getLast?_cons]

theorem metrics_foldl (gs : List OptionGroup) (o : Options) :
    (gs.foldl apply o).stream.metrics = o.stream.metrics := by
  induction gs generalizing o with
  | nil => rfl
  | cons g gs ih =>
    rw [List.foldl_cons, ih]
    cases g with
    | flag f => exact Flag.metrics_apply f o
    | mode text m named => rfl

theorem chosen (p : Preferences) (gs : List OptionGroup) :
    Chosen p gs (gs.foldl apply (.ofPreferences p)) where
  moved_iff f := by
    rw [setting_foldl]
    by_cases hf : f ∈ gs.filterMap flag?
    · simp only [hf, if_true, true_and]
      exact ne_comm
    · simp [hf]
  mode_eq := mode_foldl gs _
  metrics_eq := metrics_foldl gs _
  files_eq := rfl
  log_eq := rfl

/-- Only which flags occur and which modes follow each other counts. -/
theorem foldl_eq {gs hs : List OptionGroup} (o : Options)
    (hflag : ∀ f, f ∈ gs.filterMap flag? ↔ f ∈ hs.filterMap flag?)
    (hmode : gs.filterMap mode? = hs.filterMap mode?) : gs.foldl apply o = hs.foldl apply o := by
  apply Options.eq_of_settings
  · intro f
    simp only [setting_foldl, hflag f]
  · rw [mode_foldl, mode_foldl, hmode]
  · rw [metrics_foldl, metrics_foldl]

theorem foldl_eq_of_perm {gs hs : List OptionGroup} (o : Options) (h : hs.Perm gs)
    (hmode : hs.filterMap mode? = gs.filterMap mode?) : hs.foldl apply o = gs.foldl apply o :=
  foldl_eq o (fun _ => (h.filterMap flag?).mem_iff) hmode

theorem foldl_repeated {f : Flag} {front back : List OptionGroup} (o : Options)
    (h : f ∈ (front ++ back).filterMap flag?) :
    (front ++ .flag f :: back).foldl apply o = (front ++ back).foldl apply o := by
  apply foldl_eq
  · intro g
    simp only [List.filterMap_append, List.filterMap_cons, flag?, List.mem_append,
      List.mem_cons] at h ⊢
    constructor
    · rintro (hfront | rfl | hback)
      · exact .inl hfront
      · exact h
      · exact .inr hback
    · rintro (hfront | hback)
      · exact .inl hfront
      · exact .inr (.inr hback)
  · rw [List.filterMap_append, List.filterMap_append, List.filterMap_cons_none rfl]

end OptionGroup

/-! ### What is accepted -/

open OptionGroup

namespace Options

theorem parse_flag (o : Options) (f : Flag) (args : List String) :
    o.parse (f.text :: args) = (f.apply o).parse args := by
  rw [parse.eq_def]
  simp only [f.text_ne_modeOption, if_false, Flag.ofText?_text]

theorem parse_mode (o : Options) {text : String} {m : OutputMode}
    (named : OutputMode.ofText? text = some m) (args : List String) :
    o.parse (modeOption :: text :: args) = (o.setMode m).parse args := by
  rw [parse, if_pos rfl, named]

theorem parse_words (o : Options) (gs : List OptionGroup) :
    o.parse (gs.flatMap words) = .ok (gs.foldl apply o) := by
  induction gs generalizing o with
  | nil => rfl
  | cons g gs ih =>
    rw [List.flatMap_cons, List.foldl_cons, ← ih]
    cases g with
    | flag f => exact parse_flag o f _
    | mode text m named => exact parse_mode o named _

theorem words_of_parse {o o' : Options} {args : List String} (h : o.parse args = .ok o') :
    ∃ gs : List OptionGroup, gs.flatMap words = args := by
  fun_induction parse o args with
  | case1 o => exact ⟨[], rfl⟩
  | case2 => simp at h
  | case3 o value rest m named ih =>
    obtain ⟨gs, rfl⟩ := ih h
    exact ⟨.mode value m named :: gs, rfl⟩
  | case4 => simp at h
  | case5 o arg rest hne f hf ih =>
    obtain ⟨gs, rfl⟩ := ih h
    exact ⟨.flag f :: gs, by rw [List.flatMap_cons, words, f.text_of_ofText? hf]; rfl⟩
  | case6 => simp at h

/-- What follows the option for the mode is its text, also where it would be a flag. -/
example (o : Options) : o.parse ["--mode", "--trim"] = .error (.unknownMode "--trim") := rfl

/-- The parser accepts exactly the rows of groups. The flags that occur move their settings and
the last mode counts, whatever the order and the number of the flags. -/
theorem parse_accepts_groups (p : Preferences) :
    let base := ofPreferences p
    (∀ args : List String, (∃ o, base.parse args = .ok o) ↔
      ∃ gs : List OptionGroup, gs.flatMap words = args) ∧
    ∀ gs : List OptionGroup, ∃ o, base.parse (gs.flatMap words) = .ok o ∧ Chosen p gs o ∧
      (∀ hs : List OptionGroup, hs.Perm gs → hs.filterMap mode? = gs.filterMap mode? →
        base.parse (hs.flatMap words) = .ok o) ∧
      ∀ (f : Flag) (front back : List OptionGroup), gs = front ++ back →
        f ∈ gs.filterMap flag? → base.parse ((front ++ .flag f :: back).flatMap words) = .ok o := by
  intro base
  refine ⟨fun args => ⟨?_, ?_⟩, fun gs => ⟨gs.foldl apply base, ?_, chosen p gs, ?_, ?_⟩⟩
  · rintro ⟨o, h⟩
    exact words_of_parse h
  · rintro ⟨gs, rfl⟩
    exact ⟨_, parse_words base gs⟩
  · exact parse_words base gs
  · intro hs hperm hmode
    rw [parse_words, foldl_eq_of_perm base hperm hmode]
  · rintro f front back rfl hf
    rw [parse_words, foldl_repeated base hf]

end Options

end TokenAtlas.CommandLine
