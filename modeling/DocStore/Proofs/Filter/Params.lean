import DocStore.Filter.Table
import DocStore.Proofs.Text.Split
import Mathlib.Data.List.Basic

/-!
# Filters sent as parameters

The entries of a list that was read from text are trimmed, not empty and
without a comma (`FilterList.Clean`). Each of them is read back as itself
alone, and texts joined with commas are read one after the other, so a
clean list is read back from its parameter. Clean or not, a list that
allows all schemas is sent as the empty text and read back as that.

A whitelist is sent alone and decides alone, so nothing of the other
lists is missed.

Main statement: `params_carry_filter`.
-/

namespace DocStore

/-! ## Lists -/

namespace FilterList

/-- What a list is given as. -/
inductive Source where
  | text (s : String)
  | texts (items : List String)

def Source.list : Source → FilterList
  | .text s => ofString s
  | .texts items => ofList items

/-- The entries are trimmed, not empty, and without a comma. -/
def Clean (l : FilterList) : Prop :=
  ∀ entry ∈ l.entries, Text.trim entry = entry ∧ entry ≠ "" ∧ ',' ∉ entry.toList

variable {l : FilterList}

theorem clean_ofString (s : String) : (ofString s).Clean := by
  intro entry hentry
  simp only [ofString, List.mem_filter, List.mem_map, decide_eq_true_eq] at hentry
  obtain ⟨⟨part, hpart, rfl⟩, hne⟩ := hentry
  exact ⟨Text.trim_trim part, hne, Text.not_mem_trim_of_mem_splitOn hpart⟩

theorem clean_ofList (items : List String) : (ofList items).Clean := clean_ofString _

theorem Source.clean_list (source : Source) : source.list.Clean := by
  cases source with
  | text s => exact clean_ofString s
  | texts items => exact clean_ofList items

theorem entries_ofString_append (s t : String) :
    (ofString (s ++ "," ++ t)).entries = (ofString s).entries ++ (ofString t).entries := by
  have hcomma : ",".toList = [','] := rfl
  simp [ofString, Text.splitOn, hcomma, Chars.splitOn_append_sep]

theorem entries_ofList : ∀ items : List String,
    (ofList items).entries = items.flatMap fun s => (ofString s).entries
  | [] => rfl
  | [s] => by simp [ofList]
  | s :: next :: items => by
    rw [List.flatMap_cons, ← entries_ofList (next :: items), ofList,
      String.intercalate_cons_cons, entries_ofString_append]
    rfl

example : (ofList ["a, b", " ,c"]).entries = ["a", "b", "c"] := by decide

/-- An entry of a clean list is read as itself alone. -/
theorem Clean.entries_ofString (h : l.Clean) {entry : String} (hentry : entry ∈ l.entries) :
    (ofString entry).entries = [entry] := by
  obtain ⟨htrim, hne, hcomma⟩ := h entry hentry
  simp [ofString, Text.splitOn, Chars.splitOn_of_not_mem hcomma, htrim, hne]

/-- A clean list is read back from its parameter, which joins its entries as
the texts of a list are joined. -/
theorem Clean.ofString_param (h : l.Clean) : ofString l.param = l := by
  have hentries : (ofList l.entries).entries = l.entries := by
    rw [entries_ofList, List.flatMap_congr fun entry => h.entries_ofString, List.flatMap_singleton']
  exact congrArg FilterList.mk hentries

end FilterList

/-! ## Schemas -/

namespace SchemaFilter

variable {l : FilterList}

theorem clean_allowed (h : l.Clean) : (ofList l).allowed.Clean := by
  rw [ofList]
  split
  · exact FilterList.clean_ofString ""
  · exact h

/-- Restrictions that were lifted stay lifted, and others stay. -/
theorem ofList_allowed (l : FilterList) : ofList (ofList l).allowed = ofList l := by
  by_cases hall : l.entries.any isAll
  · have hlifted : ofList l = ⟨.empty⟩ := if_pos hall
    rw [hlifted]
    rfl
  · have hkept : ofList l = ⟨l⟩ := if_neg hall
    rw [hkept, hkept]

theorem ofList_ofString_param (h : l.Clean) : ofList (.ofString (ofList l).param) = ofList l := by
  rw [param, (clean_allowed h).ofString_param, ofList_allowed]

end SchemaFilter

/-! ## Filters -/

namespace TableFilter

open FilterList (Source)

/-- The filter that the parameters of a discovery query say: the whitelist alone,
or the other three lists. -/
def ofParams : List Cell → Option TableFilter
  | [.text whitelist] => some (ofLists .empty .empty .empty (some (.ofString whitelist)))
  | [.text schemas, .text blacklist, .text exceptions] =>
    some (ofLists (.ofString schemas) (.ofString blacklist) (.ofString exceptions) none)
  | _ => none

variable {schemas blacklist exceptions : FilterList}

/-- Without a whitelist the parameters say the filter itself. -/
theorem ofParams_lists (hschemas : schemas.Clean) (hblacklist : blacklist.Clean)
    (hexceptions : exceptions.Clean) :
    ofParams (params ⟨.ofList schemas, ⟨blacklist⟩, ⟨exceptions⟩, none⟩) =
      some ⟨.ofList schemas, ⟨blacklist⟩, ⟨exceptions⟩, none⟩ := by
  show some (TableFilter.mk (.ofList (.ofString (SchemaFilter.ofList schemas).param))
    ⟨.ofString blacklist.param⟩ ⟨.ofString exceptions.param⟩ none) = _
  rw [SchemaFilter.ofList_ofString_param hschemas, hblacklist.ofString_param,
    hexceptions.ofString_param]

theorem ofParams_whitelist {whitelist : FilterList} (h : whitelist.Clean)
    (hne : whitelist.isEmpty = false) (f : TableFilter) (hf : f.whitelist = some ⟨whitelist⟩) :
    ofParams f.params = some ⟨⟨.empty⟩, ⟨.empty⟩, ⟨.empty⟩, some ⟨whitelist⟩⟩ := by
  rw [params, hf]
  show some (ofLists _ _ _ (some (.ofString whitelist.param))) = _
  rw [h.ofString_param, ofLists, Option.filter_some, hne]
  rfl

/-- A whitelist decides alone. -/
theorem allows_congr {f g : TableFilter} {patterns : TablePatterns}
    (hf : f.whitelist = some patterns) (hg : g.whitelist = some patterns) (schema name : String) :
    g.allows schema name = f.allows schema name := by
  rw [allows, allows, hf, hg]

/-- The parameters of a discovery query carry the whole filter: what they say
allows the same tables and has the same parameters. And the entries of a list of
texts are those of each text in turn. -/
theorem params_carry_filter (schemas blacklist exceptions : Source) (whitelist : Option Source) :
    let f := ofLists schemas.list blacklist.list exceptions.list (whitelist.map Source.list)
    (∃ g, ofParams f.params = some g ∧
      (∀ schema name, g.allows schema name = f.allows schema name) ∧ g.params = f.params) ∧
    ∀ items : List String, (FilterList.ofList items).Clean ∧
      (FilterList.ofList items).entries =
        items.flatMap fun s => (FilterList.ofString s).entries := by
  intro f
  refine ⟨?_, fun items => ⟨FilterList.clean_ofList items, FilterList.entries_ofList items⟩⟩
  -- A whitelist without entries counts as none.
  cases hlist : (whitelist.map Source.list).filter fun l => !l.isEmpty with
  | none =>
    simp only [f, ofLists, hlist]
    exact ⟨_, ofParams_lists schemas.clean_list blacklist.clean_list exceptions.clean_list,
      fun _ _ => rfl, rfl⟩
  | some list =>
    obtain ⟨hsource, hne⟩ := Option.filter_eq_some_iff.mp hlist
    obtain ⟨source, -, rfl⟩ := Option.map_eq_some_iff.mp hsource
    simp only [f, ofLists, hlist]
    refine ⟨_, ofParams_whitelist source.clean_list (by simpa using hne) _ rfl, ?_, rfl⟩
    exact allows_congr rfl rfl

end TableFilter

end DocStore
