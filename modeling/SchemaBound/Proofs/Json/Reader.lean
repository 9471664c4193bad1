import SchemaBound.Json.Parser
import SchemaBound.Proofs.Json.Names

/-! Values read from text have no object in which a name stands twice. -/
namespace SchemaBound.Json

/-- A value that is one token holds no object. -/
def Token.IsPlain (t : Token) : Prop := ∀ v, t = .scalar v → v.hasDistinctNames

/-- What was finished in the container so far has distinct names. -/
def Frame.HasDistinctNames : Frame → Prop
  | .items done => ∀ v ∈ done, v.hasDistinctNames
  | .members done _ => (Json.obj done).hasDistinctNames

/-- What was finished in all open containers, or read to the end, has distinct names. -/
structure Reader.HasDistinctNames (r : Reader) : Prop where
  frames : ∀ frame ∈ r.frames, frame.HasDistinctNames
  finished : ∀ v, r.expects = .finish v → v.hasDistinctNames

theorem Reader.hasDistinctNames_give {v : Json} (hv : v.hasDistinctNames) {frames : List Frame}
    (hf : ∀ frame ∈ frames, frame.HasDistinctNames) : (Reader.give v frames).HasDistinctNames := by
  cases frames with
  | nil =>
    refine ⟨fun _ hframe => absurd hframe List.not_mem_nil, fun w hw => ?_⟩
    obtain rfl := Expectation.finish.inj hw
    exact hv
  | cons frame outer =>
    obtain ⟨hframe, houter⟩ := List.forall_mem_cons.mp hf
    cases frame with
    | items done =>
      refine ⟨List.forall_mem_cons.mpr ⟨?_, houter⟩, fun _ hw => nomatch hw⟩
      exact List.forall_mem_cons.mpr ⟨hv, hframe⟩
    | members done name =>
      refine ⟨List.forall_mem_cons.mpr ⟨?_, houter⟩, fun _ hw => nomatch hw⟩
      exact hasDistinctNames_setMember hframe hv

theorem Reader.hasDistinctNames_value {r r' : Reader} {t : Token} (ht : t.IsPlain)
    (hr : r.HasDistinctNames) (h : r.value t = some r') : r'.HasDistinctNames := by
  have henter (frame : Frame) (expects : Expectation) (hframe : frame.HasDistinctNames)
      (hexpects : ∀ v, expects ≠ .finish v) (h : r.enter frame expects = some r') : r'.HasDistinctNames := by
    unfold enter at h
    split at h
    · obtain rfl := Option.some.inj h
      exact ⟨List.forall_mem_cons.mpr ⟨hframe, hr.frames⟩, fun v hv => absurd hv (hexpects v)⟩
    · cases h
  cases t with
  | scalar v =>
    obtain rfl := Option.some.inj h
    exact hasDistinctNames_give (ht v rfl) hr.frames
  | openArray => exact henter (.items []) .valueOrClose (by simp [Frame.HasDistinctNames]) nofun h
  | openObject =>
    exact henter (.members [] "") .nameOrClose (by simp [Frame.HasDistinctNames, hasDistinctNames_obj_iff]) nofun h
  | _ => cases h

theorem Reader.hasDistinctNames_close {r r' : Reader} {t : Token} (hr : r.HasDistinctNames)
    (h : r.close t = some r') : r'.HasDistinctNames := by
  unfold close at h
  split at h
  · rename_i done outer hframes
    obtain rfl := Option.some.inj h
    have hframe := hr.frames
    rw [hframes, List.forall_mem_cons] at hframe
    refine hasDistinctNames_give (hasDistinctNames_arr_iff.mpr fun v hv => ?_) hframe.2
    exact hframe.1 v (List.mem_reverse.mp hv)
  · rename_i done name outer hframes
    obtain rfl := Option.some.inj h
    have hframe := hr.frames
    rw [hframes, List.forall_mem_cons] at hframe
    exact hasDistinctNames_give hframe.1 hframe.2
  · cases h

/-- A token keeps names distinct in whatever has been read. -/
theorem Reader.hasDistinctNames_step {r r' : Reader} {t : Token} (ht : t.IsPlain)
    (hr : r.HasDistinctNames) (h : r.step t = some r') : r'.HasDistinctNames := by
  -- Where nothing is finished and no frame changes what it holds, there is nothing to show.
  have hkept (expects : Expectation) (hexpects : ∀ v, expects ≠ .finish v) :
      Reader.HasDistinctNames { r with expects } := ⟨hr.frames, fun v hv => absurd hv (hexpects v)⟩
  obtain ⟨frames, expects⟩ := r
  unfold step at h
  cases expects with
  | value => exact hasDistinctNames_value ht hr h
  | valueOrClose =>
    dsimp only at h
    split at h
    · exact hasDistinctNames_close hr h
    · exact hasDistinctNames_value ht hr h
  | name | nameOrClose =>
    dsimp only at h
    split at h
    · obtain rfl := Option.some.inj h
      exact hkept _ nofun
    · exact hasDistinctNames_close hr h
    · cases h
  | colon name =>
    dsimp only at h
    split at h
    · obtain rfl := Option.some.inj h
      have hframes := List.forall_mem_cons.mp hr.frames
      exact ⟨List.forall_mem_cons.mpr hframes, nofun⟩
    · cases h
  | commaOrClose =>
    dsimp only at h
    split at h
    · obtain rfl := Option.some.inj h
      exact hkept _ nofun
    · obtain rfl := Option.some.inj h
      exact hkept _ nofun
    · exact hasDistinctNames_close hr h
  | finish v => cases h

theorem isPlain_of_tokens {fuel : Nat} {text : List Char} {tokens : List Token}
    (h : tokens? fuel text = some tokens) : ∀ t ∈ tokens, t.IsPlain := by
  induction fuel generalizing text tokens with
  | zero =>
    cases text with
    | nil =>
      obtain rfl := Option.some.inj h
      exact fun _ ht => absurd ht List.not_mem_nil
    | cons c rest => cases h
  | succ fuel ih =>
    cases text with
    | nil =>
      obtain rfl := Option.some.inj h
      exact fun _ ht => absurd ht List.not_mem_nil
    | cons c rest =>
      have hnext (t : Token) (ht : t.IsPlain) (rest : List Char)
          (h : (tokens? fuel rest).map (t :: ·) = some tokens) : ∀ t ∈ tokens, t.IsPlain := by
        obtain ⟨others, hothers, rfl⟩ := Option.map_eq_some_iff.mp h
        exact List.forall_mem_cons.mpr ⟨ht, ih hothers⟩
      have hscalar (v : Json) (hv : v.hasDistinctNames) : (Token.scalar v).IsPlain := by
        intro w hw
        obtain rfl := Token.scalar.inj hw
        exact hv
      unfold tokens? at h
      dsimp only at h
      split at h
      · exact ih h
      · split at h
        · exact hnext .openObject nofun _ h
        · exact hnext .closeObject nofun _ h
        · exact hnext .openArray nofun _ h
        · exact hnext .closeArray nofun _ h
        · exact hnext .comma nofun _ h
        · exact hnext .colon nofun _ h
        · obtain ⟨⟨body, rest'⟩, _, h⟩ := Option.bind_eq_some_iff.mp h
          exact hnext _ (hscalar _ (by simp [hasDistinctNames])) _ h
        · split at h
          · exact hnext _ (hscalar _ (by simp [hasDistinctNames])) _ h
          · cases h
        · split at h
          · exact hnext _ (hscalar _ (by simp [hasDistinctNames])) _ h
          · cases h
        · split at h
          · exact hnext _ (hscalar _ (by simp [hasDistinctNames])) _ h
          · cases h
        · obtain ⟨n, _, h⟩ := Option.bind_eq_some_iff.mp h
          exact hnext _ (hscalar _ (by simp [hasDistinctNames])) _ h

/-- Whatever is read from text has distinct names. -/
theorem hasDistinctNames_of_parse {text : String} {v : Json} (h : parse? text = some v) :
    v.hasDistinctNames := by
  obtain ⟨tokens, htokens, hread⟩ := Option.bind_eq_some_iff.mp h
  have hplain := isPlain_of_tokens htokens
  have hrun (start last : Reader) (hstart : start.HasDistinctNames)
      (h : tokens.foldlM Reader.step start = some last) : last.HasDistinctNames := by
    clear htokens hread
    induction tokens generalizing start with
    | nil =>
      obtain rfl := Option.some.inj h
      exact hstart
    | cons t rest ih =>
      obtain ⟨next, hnext, h⟩ := Option.bind_eq_some_iff.mp h
      obtain ⟨ht, hrest⟩ := List.forall_mem_cons.mp hplain
      exact ih hrest next (Reader.hasDistinctNames_step ht hstart hnext) h
  unfold ofTokens? at hread
  split at hread
  · rename_i w hlast
    obtain rfl := Option.some.inj hread
    have hstart : Reader.HasDistinctNames ⟨[], .value⟩ := ⟨fun _ h => absurd h List.not_mem_nil, nofun⟩
    exact (hrun _ _ hstart hlast).finished _ rfl
  · cases hread

end SchemaBound.Json
