/-!
# What every generated file starts with

Both files of generated code start with the notice of the schema that they are made from, and with
a warning not to edit them.  The lines that follow differ, but for those that let the compiler
overlook unused names and those that bring the constructors of expressions into scope.
-/

namespace TileSchema.Code

/-- The notice of the schema. -/
def noticeLines : List String :=
  ["/*",
    "Copyright (c) 2016, KlokanTech.com & OpenMapTiles contributors.",
    "All rights reserved.",
    "",
    "Code license: BSD 3-Clause License",
    "",
    "Redistribution and use in source and binary forms, with or without",
    "modification, are permitted provided that the following conditions are met:",
    "",
    "* Redistributions of source code must retain the above copyright notice, this",
    "  list of conditions and the following disclaimer.",
    "",
    "* Redistributions in binary form must reproduce the above copyright notice,",
    "  this list of conditions and the following disclaimer in the documentation",
    "  and/or other materials provided with the distribution.",
    "",
    "* Neither the name of the copyright holder nor the names of its",
    "  contributors may be used to endorse or promote products derived from",
    "  this software without specific prior written permission.",
    "",
    "THIS SOFTWARE IS PROVIDED BY THE COPYRIGHT HOLDERS AND CONTRIBUTORS \"AS IS\"",
    "AND ANY EXPRESS OR IMPLIED WARRANTIES, INCLUDING, BUT NOT LIMITED TO, THE",
    "IMPLIED WARRANTIES OF MERCHANTABILITY AND FITNESS FOR A PARTICULAR PURPOSE ARE",
    "DISCLAIMED. IN NO EVENT SHALL THE COPYRIGHT HOLDER OR CONTRIBUTORS BE LIABLE",
    "FOR ANY DIRECT, INDIRECT, INCIDENTAL, SPECIAL, EXEMPLARY, OR CONSEQUENTIAL",
    "DAMAGES (INCLUDING, BUT NOT LIMITED TO, PROCUREMENT OF SUBSTITUTE GOODS OR",
    "SERVICES; LOSS OF USE, DATA, OR PROFITS; OR BUSINESS INTERRUPTION) HOWEVER",
    "CAUSED AND ON ANY THEORY OF LIABILITY, WHETHER IN CONTRACT, STRICT LIABILITY,",
    "OR TORT (INCLUDING NEGLIGENCE OR OTHERWISE) ARISING IN ANY WAY OUT OF THE USE",
    "OF THIS SOFTWARE, EVEN IF ADVISED OF THE POSSIBILITY OF SUCH DAMAGE.",
    "",
    "Design license: CC-BY 4.0",
    "",
    "See https://github.com/openmaptiles/openmaptiles/blob/master/LICENSE.md for details on usage",
    "*/"]

/-- The warning not to edit a generated file. -/
def warningLine : String := "// AUTOGENERATED BY tilegen -- DO NOT MODIFY"

/-- The first lines of a file. -/
def preamble : List String := noticeLines ++ [warningLine]

/-- The line that lets the compiler overlook unused names. -/
def lintLine : String := "#![allow(dead_code, unused_imports, unused_mut, unused_variables)]"

/-- The line that brings the constructors of expressions into scope. -/
def expressionImports : String :=
  "use crate::expression::\x7bExpression, MultiExpression, and, match_any, match_field, " ++
    "match_type, not, or\x7d;"

/-- The text of lines, each of them ended. -/
def unlines (lines : List String) : String := String.join (lines.map (· ++ "\n"))

end TileSchema.Code
