import Showcase.Tree.Basic

/-!
# The built-in tree

The tree that is shown when no other is configured.
-/

namespace Showcase.Directory

private def textFile (name content : Text) : Text × Entry := (name, .file content)

private def folder (name : Text) (entries : Directory) : Text × Entry := (name, .directory entries)

/-- A developer's portfolio: who they are, what they made and how to reach them. -/
def builtin : Directory :=
  [folder "info" [
    textFile "about.txt"
      "Hi! I'm Drinor, a developer passionate about building interactive web experiences.",
    textFile "skills.txt"
      "Languages: JavaScript, Python, Go\nFrameworks: React, Next.js, Node.js\nOther: Git, Linux, Docker",
    folder "projects" [
      textFile "portfolio.txt"
        "Terminal Portfolio — A fun terminal-like interface to explore my work.",
      textFile "blog.txt" "Personal blog — Sharing thoughts on code, design, and tech."],
    folder "contact" [
      textFile "email.txt" "youremail@example.com",
      textFile "github.txt" "https://github.com/yourusername",
      textFile "linkedin.txt" "https://www.linkedin.com/in/yourusername/"],
    textFile ".secret.txt" "This is a hidden file! Only visible with 'ls -a'."]]

end Showcase.Directory
