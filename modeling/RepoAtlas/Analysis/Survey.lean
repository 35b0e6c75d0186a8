/-
Module: RepoAtlas.Analysis.Survey
Purpose: Everything that can be said of a repository from the outlines of its files alone.
Main exports: Survey, Survey.ofFiles
-/
import RepoAtlas.Overview.Basic
import RepoAtlas.Skeleton.Basic

namespace RepoAtlas

/-- The graphs, rankings and reports over the discovered files. -/
structure Survey where
  /-- The display name of the repository. -/
  name : String
  files : FileMap
  imports : Imports.Graph
  ranked : List Ranking.RankedFile
  architecture : Architecture.Graph
  overview : Overview.Report
  skeleton : Skeleton
deriving Inhabited

/-- The survey of the discovered files of a repository. -/
def Survey.ofFiles (name repositoryPath : String) (files : FileMap) : Survey :=
  let imports := Imports.build files
  let ranked := Ranking.rank imports (some files)
  let architecture := Architecture.build files imports
  { name := name
    files := files
    imports := imports
    ranked := ranked
    architecture := architecture
    overview := Overview.report files imports architecture
    skeleton := Skeleton.build name repositoryPath ranked files }

end RepoAtlas
