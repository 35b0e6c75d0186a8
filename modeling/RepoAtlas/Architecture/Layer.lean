/-
Module: RepoAtlas.Architecture.Layer
Purpose: The architectural layer of a file, inferred from its top-level directory.
Main exports: Layer, Layer.word, Layer.all, Layer.ofPath
-/
import RepoAtlas.Text.Search

namespace RepoAtlas.Architecture

/-- An architectural layer. -/
inductive Layer where
  | ui
  | api
  | domain
  | infra
  | util
  | config
  | test
  | other
deriving DecidableEq, Repr, Inhabited

namespace Layer

/-- The layers from the outermost to the innermost, then the rest. -/
def all : List Layer := [.ui, .api, .domain, .infra, .util, .config, .test, .other]

/-- The word for a layer. -/
def word : Layer → String
  | .ui => "ui"
  | .api => "api"
  | .domain => "domain"
  | .infra => "infra"
  | .util => "util"
  | .config => "config"
  | .test => "test"
  | .other => "other"

/-- The top-level directories that belong to each layer. -/
def directories : List (Layer × List String) := [
  (.ui, ["components", "pages", "views", "screens", "ui"]),
  (.api, ["api", "routes", "endpoints", "handlers"]),
  (.domain, ["domain", "models", "entities", "core"]),
  (.infra, ["infra", "database", "db", "repositories", "services"]),
  (.util, ["utils", "helpers", "lib", "shared", "common"]),
  (.config, ["config", "settings"]),
  (.test, ["__tests__", "test", "tests", "spec"])]

/-- The layer of a file, if its top-level directory belongs to one. -/
def ofPath (path : String) : Option Layer :=
  match Text.splitText '/' path with
  | top :: _ :: _ => (directories.find? (fun rule => rule.2.contains top)).map Prod.fst
  | _ => none

/-- The position of a layer in the order of layers. -/
def index (layer : Layer) : Nat :=
  all.idxOf layer

end Layer

end RepoAtlas.Architecture
