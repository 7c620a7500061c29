/-!
# Listener configurations

`ParseListenerConfig` of package `server` reads a listener's configuration,
either JSON with a `type` field or the compact form `type,...`, and hands it
to the listener factory registered under that type. `encoding/json` and the
factories themselves are not in the sources; they are parameters.
-/

set_option autoImplicit false

namespace Moons.Server

/-- A listener factory: its `ParseConfigJSON` and `ParseConfigCompact`. -/
structure ListenerFactory (Cfg : Type) where
  parseConfigJSON : String → Except String Cfg
  parseConfigCompact : String → Except String Cfg

/-- `lisfactory`, the registered listener factories. -/
def Factories (Cfg : Type) := List (String × ListenerFactory Cfg)

/-- `AddListenerFactory(x, f)`: register `f` under `x`, replacing any
factory registered there. -/
def addListenerFactory {Cfg : Type} (fs : Factories Cfg) (x : String) (f : ListenerFactory Cfg) : Factories Cfg :=
  (x, f) :: List.filter (·.1 != x) fs

/-- `GetListenerFactory(x)`. -/
def getListenerFactory {Cfg : Type} (fs : Factories Cfg) (x : String) : Option (ListenerFactory Cfg) :=
  List.lookup x fs

/-- `tryJSON(data)`: the `type` field when `data` unmarshals into
`jsonConfig`; `decodeType` is `json.Unmarshal` into that field. -/
def tryJSON (decodeType : String → Option String) (data : String) : String × Bool :=
  match decodeType data with
  | some t => (t, true)
  | none => ("", false)

/-- `tryCompact(data)`: the first piece of `strings.Split(data, ",")`. -/
def tryCompact (data : String) : String × Bool :=
  match data.splitOn "," with
  | [] => ("", false)
  | t :: _ => (t, true)

/-- `ParseListenerConfig(content)`. -/
def parseListenerConfig {Cfg : Type} (decodeType : String → Option String) (fs : Factories Cfg)
    (content : String) : Except String Cfg :=
  if (tryJSON decodeType content).2 then
    let t := (tryJSON decodeType content).1
    match getListenerFactory fs t with
    | none => .error ("unknown listener type: " ++ t)
    | some factory => factory.parseConfigJSON content
  else if (tryCompact content).2 then
    let t := (tryCompact content).1
    match getListenerFactory fs t with
    | none => .error ("unknown listener type: " ++ t)
    | some factory => factory.parseConfigCompact content
  else .error ("invalid listener config: " ++ content)

theorem splitOnAux_ne_nil (s sep : String) (b i j : String.Pos) (r : List String) :
    String.splitOnAux s sep b i j r ≠ [] := by
  induction b, i, j, r using String.splitOnAux.induct s sep with
  | case1 b i j r h => rw [String.splitOnAux, if_pos h]; simp
  | case2 b i j r h hg i' j' hend ih => rw [String.splitOnAux, if_neg h, if_pos hg]; simp only [hend, if_true]; exact ih
  | case3 b i j r h hg i' j' hend ih => rw [String.splitOnAux, if_neg h, if_pos hg]; simp only [hend]; exact ih
  | case4 b i j r h hg ih => rw [String.splitOnAux, if_neg h, if_neg hg]; exact ih

theorem splitOn_ne_nil (s sep : String) : s.splitOn sep ≠ [] := by
  unfold String.splitOn
  split
  · simp
  · exact splitOnAux_ne_nil _ _ _ _ _ _

theorem tryCompact_eq (data : String) : tryCompact data = ((data.splitOn ",").headD "", true) := by
  unfold tryCompact
  split
  · exact absurd ‹_› (splitOn_ne_nil _ _)
  · simp_all

/-- `ParseListenerConfig` never reports an invalid configuration: the
content's type is its JSON `type` field when it is JSON, and otherwise the
first piece of the content split at its commas; the factory registered under
that type parses it in the matching form, and an unregistered type is
reported as such. -/
theorem parseListenerConfig_eq {Cfg : Type} (decodeType : String → Option String) (fs : Factories Cfg)
    (content : String) :
    parseListenerConfig decodeType fs content =
      let t := (decodeType content).getD ((content.splitOn ",").headD "")
      match getListenerFactory fs t with
      | none => .error ("unknown listener type: " ++ t)
      | some factory =>
        if (decodeType content).isSome then factory.parseConfigJSON content else factory.parseConfigCompact content := by
  unfold parseListenerConfig tryJSON
  cases decodeType content with
  | some t => rfl
  | none => simp only [tryCompact_eq, if_true, Bool.false_eq_true, if_false, Option.getD_none, Option.isSome_none]

end Moons.Server
