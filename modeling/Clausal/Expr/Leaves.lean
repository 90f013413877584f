import Clausal.Expr.Basic

/-!
# Leaves of expressions

The paths and the literals of an expression, left to right at every depth, and the replacement of every
path.
-/

namespace Clausal.Expr

mutual

def paths : Expr → List Path
  | field p => [p]
  | literal _ | param _ | wildcard => []
  | binary l _ r => paths l ++ paths r
  | unary _ e | isNull e _ => paths e
  | isIn e es _ => paths e ++ pathsAll es
  | between e l h _ => paths e ++ paths l ++ paths h
  | call _ es _ => pathsAll es

def pathsAll : List Expr → List Path
  | [] => []
  | e :: es => paths e ++ pathsAll es

end

mutual

def literals : Expr → List Literal
  | literal l => [l]
  | field _ | param _ | wildcard => []
  | binary l _ r => literals l ++ literals r
  | unary _ e | isNull e _ => literals e
  | isIn e es _ => literals e ++ literalsAll es
  | between e l h _ => literals e ++ literals l ++ literals h
  | call _ es _ => literalsAll es

def literalsAll : List Expr → List Literal
  | [] => []
  | e :: es => literals e ++ literalsAll es

end

mutual

def mapPaths (f : Path → Path) : Expr → Expr
  | field p => field (f p)
  | literal l => literal l
  | param p => param p
  | wildcard => wildcard
  | binary l op r => binary (mapPaths f l) op (mapPaths f r)
  | unary op e => unary op (mapPaths f e)
  | isNull e n => isNull (mapPaths f e) n
  | isIn e es n => isIn (mapPaths f e) (mapPathsAll f es) n
  | between e l h n => between (mapPaths f e) (mapPaths f l) (mapPaths f h) n
  | call g es d => call g (mapPathsAll f es) d

def mapPathsAll (f : Path → Path) : List Expr → List Expr
  | [] => []
  | e :: es => mapPaths f e :: mapPathsAll f es

end

def rename (old new : String) (e : Expr) : Expr := e.mapPaths (Path.rename old new)

theorem mapPathsAll_eq_map (f : Path → Path) (es : List Expr) :
    mapPathsAll f es = es.map (mapPaths f) := by
  induction es with
  | nil => rfl
  | cons e es ih => simp [mapPathsAll, ih]

end Clausal.Expr
